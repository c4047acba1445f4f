import Buildpath.Archive.Location
import Buildpath.Classpath.Json
import Buildpath.Dependency
import Buildpath.Problem
import Buildpath.Workspace.Manifest

/-!
# Records as JSON

Each record is decoded from what its encoder writes. A decoder accepts more than that: members in any
order, other names for them, members left out, members that belong to no field, arrays. What it makes
of any of these is a value that is written and read again as it is (`RoundTrips`).
-/

namespace Buildpath

/-- Decoding undoes encoding, for valid values and for all that are ever decoded. -/
structure RoundTrips {α : Type} (valid : α → Prop) (encode : α → Json)
    (decode : Json → Option α) : Prop where
  decode_encode : ∀ a, valid a → decode (encode a) = some a
  decode_again : ∀ j a, decode j = some a → decode (encode a) = some a

namespace RoundTrips

variable {α : Type} {valid : α → Prop} {encode : α → Json} {decode : Json → Option α}

theorem of_valid (h : ∀ a, valid a → decode (encode a) = some a)
    (hvalid : ∀ j a, decode j = some a → valid a) : RoundTrips valid encode decode :=
  ⟨h, fun j a ha => h a (hvalid j a ha)⟩

theorem of_total (h : ∀ a, decode (encode a) = some a) :
    RoundTrips (fun _ => True) encode decode :=
  of_valid (fun a _ => h a) fun _ _ _ => trivial

end RoundTrips

/-! ### Fields -/

namespace Json

namespace Fields

/-- Whether the keys name the fields in their order, each no field before its own. -/
def inOrder : List (List String) → List String → Bool
  | [], [] => true
  | names :: others, key :: keys =>
    names.contains key && keys.all (!names.contains ·) && inOrder others keys
  | _, _ => false

theorem collect?_skip {names : List String} {others : List (List String)}
    {members : List (String × Json)} (h : ∀ m ∈ members, names.contains m.1 = false)
    (first : Option Json) (found : List (Option Json)) :
    collect? (names :: others) members (first :: found) =
      (collect? others members found).map (first :: ·) := by
  induction members generalizing found with
  | nil => rfl
  | cons m rest ih =>
    obtain ⟨hm, hrest⟩ := List.forall_mem_cons.mp h
    simp only [collect?, put?, hm, Bool.false_eq_true, if_false]
    cases put? m.1 m.2 others found with
    | none => rfl
    | some found => exact ih hrest found

theorem ofJson?_of_inOrder {names : List (List String)} {members : List (String × Json)}
    (h : inOrder names (members.map (·.1)) = true) :
    ofJson? names (.object members) = some ⟨false, members.map fun m => some m.2⟩ := by
  have hcollect : collect? names members (names.map fun _ => none) =
      some (members.map fun m => some m.2) := by
    induction names generalizing members with
    | nil =>
      cases members with
      | nil => rfl
      | cons m rest => cases h
    | cons first others ih =>
      cases members with
      | nil => cases h
      | cons m rest =>
        simp only [List.map_cons, inOrder, Bool.and_eq_true, List.all_eq_true, List.mem_map,
          Bool.not_eq_true', forall_exists_index, and_imp, forall_apply_eq_imp_iff₂] at h
        obtain ⟨⟨hm, hskip⟩, hrest⟩ := h
        simp only [collect?, put?, hm, if_true, List.map_cons]
        show collect? (first :: others) rest (some m.2 :: others.map fun _ => none) = _
        rw [collect?_skip hskip, ih hrest]
        rfl
  rw [ofJson?, hcollect]
  rfl

theorem omittable_optionOf {α : Type} {encode : α → Json} {decode : Json → Option α}
    {fields : Fields} {index : Nat} {o : Option α} (h : ∀ a ∈ o, decode (encode a) = some a)
    (hn : ∀ a, encode a ≠ .null) (hi : fields.get? index = some (optionOf encode o)) :
    fields.omittable decode index = some o := by
  unfold omittable
  rw [hi]
  cases o with
  | none => rfl
  | some a =>
    have hne := hn a
    simp only [optionOf]
    simp [h a rfl]

end Fields

theorem toList?_texts (l : List String) : toList? toText? (listOf .string l) = some l :=
  toList?_listOf fun s _ => toText?_string s

theorem toOption?_text (o : Option String) : toOption? toText? (optionOf .string o) = some o :=
  toOption?_optionOf toText?_string (fun _ => nofun) o

theorem toOption?_path (o : Option Path) :
    toOption? Path.ofJson? (optionOf Path.toJson o) = some o :=
  toOption?_optionOf Path.ofJson?_toJson (fun _ => nofun) o

theorem toNatBelow?_integer {bound n : Nat} (h : n < bound) :
    toNatBelow? bound (.integer n) = some n :=
  if_pos ⟨Int.natCast_nonneg n, Int.ofNat_lt.mpr h⟩

theorem toNatBelow?_lt {bound n : Nat} {j : Json} (h : toNatBelow? bound j = some n) :
    n < bound := by
  unfold toNatBelow? at h
  split at h
  · split at h
    · cases h
      omega
    · cases h
  · cases h

end Json

open Json.Fields (ofJson?_of_inOrder)

/-! ### Dependencies -/

theorem ArchivePair.ofJson?_toJson (p : ArchivePair) : ArchivePair.ofJson? p.toJson = some p := by
  unfold ofJson? toJson
  rw [ofJson?_of_inOrder rfl]
  simp [Json.Fields.withDefault, Json.Fields.get?, Json.toOption?_text]

theorem Dependency.ofJson?_toJson (d : Dependency) : Dependency.ofJson? d.toJson = some d := by
  have hpairs : ∀ l : List ArchivePair,
      Json.toList? ArchivePair.ofJson? (Json.listOf ArchivePair.toJson l) = some l := fun l =>
    Json.toList?_listOf fun p _ => p.ofJson?_toJson
  unfold ofJson? toJson
  rw [ofJson?_of_inOrder rfl]
  simp [Json.Fields.required, Json.Fields.withDefault, Json.Fields.get?, Json.toText?_string,
    Json.toList?_texts, hpairs]

/-! ### Workspaces -/

theorem SourceRoot.ofJson?_toJson (r : SourceRoot) : SourceRoot.ofJson? r.toJson = some r := by
  unfold ofJson? toJson
  rw [ofJson?_of_inOrder rfl]
  simp [Json.Fields.required, Json.Fields.withDefault, Json.Fields.get?, Json.toList?_texts]

theorem SourceRoot.toList?_toJson (l : List SourceRoot) :
    Json.toList? SourceRoot.ofJson? (Json.listOf SourceRoot.toJson l) = some l :=
  Json.toList?_listOf fun r _ => r.ofJson?_toJson

theorem Module.ofJson?_toJson (m : Module) : Module.ofJson? m.toJson = some m := by
  unfold ofJson? toJson
  rw [ofJson?_of_inOrder rfl]
  simp [Json.Fields.required, Json.Fields.withDefault, Json.Fields.get?, Json.toText?_string,
    Json.toList?_texts, SourceRoot.toList?_toJson]

namespace Manifest

theorem moduleOfJson?_moduleToJson (m : Module) : moduleOfJson? (moduleToJson m) = some m := by
  unfold moduleOfJson? moduleToJson
  rw [ofJson?_of_inOrder rfl]
  simp [Json.Fields.required, Json.Fields.withDefault, Json.Fields.get?, Json.toText?_string,
    Json.toList?_texts, SourceRoot.toList?_toJson]

theorem ofJson?_toJson (m : Manifest) : ofJson? m.toJson = some m := by
  have hmodules : Json.toList? moduleOfJson? (Json.listOf moduleToJson m.modules) =
      some m.modules :=
    Json.toList?_listOf fun m _ => moduleOfJson?_moduleToJson m
  unfold ofJson? toJson
  rw [ofJson?_of_inOrder rfl]
  simp [Json.Fields.withDefault, Json.Fields.get?, Json.toOption?_path, hmodules]

end Manifest

theorem OutputRoots.ofJson?_toJson (r : OutputRoots) : OutputRoots.ofJson? r.toJson = some r := by
  unfold ofJson? toJson
  rw [ofJson?_of_inOrder rfl]
  simp [Json.Fields.required, Json.Fields.get?]

/-! ### Problems -/

namespace Problem

/-- Line numbers stay below the bound. -/
def IsNumbered (p : Problem) : Prop :=
  ∀ n ∈ p.line, n < numberBound

theorem ofJson?_toJson {p : Problem} (h : p.IsNumbered) : ofJson? p.toJson = some p := by
  have hline : ∀ fields : Json.Fields,
      fields.get? 1 = some (Json.optionOf (fun n : Nat => .integer n) p.line) →
      fields.omittable (Json.toNatBelow? numberBound) 1 = some p.line := fun fields =>
    Json.Fields.omittable_optionOf (fun n hn => Json.toNatBelow?_integer (h n hn)) fun _ => nofun
  unfold ofJson? toJson
  rw [ofJson?_of_inOrder rfl]
  simp only [Option.bind_eq_bind, Option.bind_some]
  rw [hline _ rfl]
  simp [Json.Fields.required, Json.Fields.get?, Json.toText?_string]

theorem isNumbered_of_ofJson? {j : Json} {p : Problem} (h : ofJson? j = some p) :
    p.IsNumbered := by
  obtain ⟨fields, -, h⟩ := Option.bind_eq_some_iff.mp h
  obtain ⟨resource, -, h⟩ := Option.bind_eq_some_iff.mp h
  obtain ⟨line, hline, h⟩ := Option.bind_eq_some_iff.mp h
  obtain ⟨description, -, h⟩ := Option.bind_eq_some_iff.mp h
  cases h
  rintro n ⟨rfl⟩
  unfold Json.Fields.omittable at hline
  split at hline
  · split at hline <;> cases hline
  · cases hline
  · obtain ⟨m, hm, hn⟩ := Option.map_eq_some_iff.mp hline
    cases hn
    exact Json.toNatBelow?_lt hm

end Problem

/-! ### Entries -/

namespace Entry

theorem ofJson?_toJson {depth : Nat} (hdepth : depth < nestingLimit) (e : Entry) :
    ofJson? depth e.toJson = some e := by
  have hreadable : e.toJson.isReadable = true := by
    cases e with
    | module path => rfl
    | library archive sources => cases sources <;> rfl
  have hheight : e.toJson.height = 1 := by
    cases e with
    | module path => rfl
    | library archive sources => cases sources <;> rfl
  unfold ofJson?
  rw [hreadable, hheight, if_pos (by simpa using Nat.succ_le_of_lt hdepth)]
  cases e with
  | module path => rfl
  | library archive sources =>
    cases sources with
    | none =>
      show (do
        let archive ← Path.ofJson? archive.toJson
        return Entry.library archive none) = _
      rw [Path.ofJson?_toJson]
      rfl
    | some sources =>
      show (do
        let archive ← Path.ofJson? archive.toJson
        let sources ← (Path.ofJson? sources.toJson).map some
        return Entry.library archive sources) = _
      rw [Path.ofJson?_toJson, Path.ofJson?_toJson]
      rfl

end Entry

end Buildpath
