import Buildpath.Report.Diagnostic

/-!
# Progress events

What an observer is told while a module's classpath is resolved or checked, and the log line that
goes with each event.

Models the components `progress/handler` and `progress/logging`.
-/

namespace Buildpath

/-- An event of a resolution or a check of `module`. -/
inductive Progress where
  | started (module : String) (hadRecord importing : Bool)
  | cacheHit (module : String)
  | queryStarted (module : String) (targets : Nat) (operation : String)
  | queryComplete (module : String) (units : Nat)
  | archiveMissing (module : String) (path : String)
  | completed (module : String) (entries : Nat)
  | failed (module : String) (error : String)
  | checkComplete (module : String) (problems : Nat)
deriving DecidableEq, Repr

namespace Progress

/-- The module that the event is about. -/
def module : Progress → String
  | .started m _ _ | .cacheHit m | .queryStarted m _ _ | .queryComplete m _
  | .archiveMissing m _ | .completed m _ | .failed m _ | .checkComplete m _ => m

private def line (level : Level) (message : String) (details : List (String × Detail)) :
    Diagnostic :=
  ⟨level, .progress, message, details⟩

/-- The log line of the event. -/
def diagnostic : Progress → Diagnostic
  | .started m hadRecord importing =>
    line .info "Computing classpath"
      [("module", .text m), ("cached_entries", .flag hadRecord), ("import", .flag importing)]
  | .cacheHit m => line .info "Using cached classpath" [("module", .text m)]
  | .queryStarted m targets operation =>
    line .debug "Querying build tool"
      [("module", .text m), ("targets", .count targets), ("operation", .text operation)]
  | .queryComplete m units =>
    line .debug "Dependency metadata received" [("module", .text m), ("units", .count units)]
  | .archiveMissing m path =>
    line .warn "Archive missing on disk" [("module", .text m), ("path", .text path)]
  | .completed m entries =>
    line .info "Classpath resolved" [("module", .text m), ("entries", .count entries)]
  | .failed m error =>
    line .error "Classpath resolution failed" [("module", .text m), ("error", .text error)]
  | .checkComplete m problems =>
    if problems > 0 then
      line .warn "Build check reported problems"
        [("module", .text m), ("problems", .count problems)]
    else line .debug "Build check clean" [("module", .text m)]

end Progress

end Buildpath
