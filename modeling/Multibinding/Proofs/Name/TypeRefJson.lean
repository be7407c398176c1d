import Multibinding.Name.TypeRefJson
import Multibinding.Proofs.Json.Rereading

/-!
# Type references read back from JSON

A type reference can be read from a document in several forms and is written in one. What was read,
in whichever form, is read back from the written form.

* `TypeRef.yields_readWithin`: what was read fits into the levels of the document;
* `TypeRef.Fits.readWithin_toNode`: what fits is read back;
* `TypeRef.restoring_read`: both together.
-/

namespace Multibinding.TypeRef

open Json

/-- A type reference can be written within a number of levels of arrays and objects, with class
names that can be told from their dotted forms. -/
inductive Fits : Nat → TypeRef → Prop where
  | declared {level : Nat} {name : ClassName} (hname : name.IsDotted) :
    Fits (level + 1) (.declared name)
  -- The object of the kind, that of the parts, and the array of the arguments.
  | parameterized {level : Nat} {raw : ClassName} {arguments : List TypeRef}
    (hraw : raw.IsDotted) (harguments : ∀ t ∈ arguments, Fits level t) :
    Fits (level + 3) (.parameterized raw arguments)
  | wildcard {level : Nat} : Fits (level + 2) .wildcard
  | subtypeOf {level : Nat} {bound : TypeRef} (hbound : Fits level bound) :
    Fits (level + 2) (.subtypeOf bound)

/-- What fits also fits into more levels. -/
theorem Fits.mono {level : Nat} {t : TypeRef} (h : t.Fits level) {more : Nat}
    (hle : level ≤ more) : t.Fits more := by
  induction h generalizing more with
  | declared hname =>
    obtain ⟨k, rfl⟩ := Nat.exists_eq_add_of_le' hle
    exact .declared hname
  | @parameterized level _ _ hraw _ ih =>
    obtain ⟨k, rfl⟩ := Nat.exists_eq_add_of_le' hle
    exact .parameterized hraw fun t ht => ih t ht (Nat.le_add_left level k)
  | wildcard =>
    obtain ⟨k, rfl⟩ := Nat.exists_eq_add_of_le' hle
    exact .wildcard
  | @subtypeOf level _ _ ih =>
    obtain ⟨k, rfl⟩ := Nat.exists_eq_add_of_le' hle
    exact .subtypeOf (ih (Nat.le_add_left level k))

theorem toJsonList_eq_map (ts : List TypeRef) : toJsonList ts = ts.map toJson := by
  induction ts with
  | nil => rfl
  | cons t rest ih => rw [toJsonList, ih, List.map_cons]

/-- What fits into a number of levels is written within them. -/
theorem Fits.height_toJson {level : Nat} {t : TypeRef} (h : t.Fits level) :
    t.toJson.height ≤ level := by
  induction h with
  | declared _ => simp [toJson, Value.height, Value.heightMembers]
  | @parameterized level _ arguments _ _ ih =>
    have harguments : Value.heightItems (toJsonList arguments) ≤ level := by
      rw [toJsonList_eq_map, Value.heightItems_le_iff]
      exact List.forall_mem_map.mpr ih
    simp only [toJson, Value.height, Value.heightMembers]
    omega
  | wildcard => simp [toJson, Value.height, Value.heightMembers]
  | subtypeOf _ ih =>
    simp only [toJson, Value.height, Value.heightMembers]
    omega

mutual

/-- Type references are written without numbers and repeated keys. -/
theorem isPlain_toJson : (t : TypeRef) → t.toJson.isPlain
  | .declared _ => by simp [toJson, Value.isPlain, Value.isPlainMembers]
  | .parameterized raw arguments => by
    have harguments := isPlain_toJsonList arguments
    simp [toJson, Value.isPlain, Value.isPlainMembers, harguments]
  | .wildcard => by decide
  | .subtypeOf bound => by
    have hbound := isPlain_toJson bound
    simp [toJson, Value.isPlain, Value.isPlainMembers, hbound]

/-- So are lists of them. -/
theorem isPlain_toJsonList : (ts : List TypeRef) → Value.isPlainItems (toJsonList ts)
  | [] => rfl
  | t :: rest => (Bool.and_eq_true _ _).mpr ⟨isPlain_toJson t, isPlain_toJsonList rest⟩

end

section Read

variable {Q : Nat → Node → Prop} {inner : Reader TypeRef}

/-- What is known about the parts of a class with type arguments once they are read. -/
def PartsFit (level : Nat) (parts : Option ClassName × Option (List TypeRef)) : Prop :=
  (∀ raw ∈ parts.1, raw.IsDotted) ∧
    ∀ arguments ∈ parts.2, Reader.Below (fun level ts => ∀ t ∈ ts, t.Fits level) level arguments

/-- The class name and the type arguments fit. -/
theorem yields_parameterizedShape (hQ : Node.Inherited Q)
    (h : Reader.Yields Q inner fun level t => t.Fits level) :
    Reader.Yields Q ((parameterizedShape inner).read (none, none)) (Reader.Below PartsFit) := by
  refine Reader.yields_shape hQ ?_ fun level => ⟨by simp, by simp⟩
  intro field hfield
  simp only [parameterizedShape, List.mem_cons, List.not_mem_nil, or_false] at hfield
  rcases hfield with rfl | rfl
  · refine Reader.yields_field Reader.yields_className ?_
    exact fun level s raw hs hraw => ⟨by simpa using hraw, hs.2⟩
  · refine Reader.yields_field (Reader.yields_array hQ h) ?_
    exact fun level s arguments hs harguments => ⟨hs.1, by simpa using harguments⟩

/-- What is known about the bound of a wildcard once it is read. -/
def BoundFits (level : Nat) (bound : Option (Option TypeRef)) : Prop :=
  ∀ t, bound = some (some t) → t.Fits level

/-- The bound of a wildcard fits. -/
theorem yields_wildcardShape (hQ : Node.Inherited Q)
    (h : Reader.Yields Q inner fun level t => t.Fits level) :
    Reader.Yields Q ((wildcardShape inner).read none) (Reader.Below BoundFits) := by
  refine Reader.yields_shape hQ ?_ fun level t h => nomatch h
  intro field hfield
  simp only [wildcardShape, List.mem_singleton] at hfield
  subst hfield
  refine Reader.yields_field (Reader.yields_optional h) ?_
  intro level s bound _ hbound t ht
  exact hbound t (Option.some_inj.mp ht)

/-- What is read from a limited number of levels fits into them. -/
theorem yields_readWithin (hQ : Node.Inherited Q) (levels : Nat) :
    Reader.Yields Q (readWithin levels) fun level t => t.Fits level := by
  induction levels with
  | zero => exact fun level n _ t h => nomatch h
  | succ levels ih =>
    rw [readWithin]
    refine Reader.yields_choice hQ ?_ ?_
    -- A bare name is no type reference of any kind.
    · intro v hv level t h
      simp only [variants, List.mem_cons, List.not_mem_nil, or_false] at hv
      rcases hv with rfl | rfl | rfl <;> cases h
    · intro v hv
      simp only [variants, List.mem_cons, List.not_mem_nil, or_false] at hv
      rcases hv with rfl | rfl | rfl
      · intro level n hn t h
        obtain ⟨c, hc, rfl⟩ := map_eq_ok_iff.mp h
        exact .declared (Reader.yields_className level n hn c hc)
      -- The parts stand a level further in, where the induction hypothesis holds.
      · intro level n hn t h
        obtain ⟨parts, hparts, h⟩ := bind_eq_ok_iff.mp h
        obtain ⟨_, rfl, hfit⟩ := yields_parameterizedShape hQ ih level n hn parts hparts
        obtain ⟨raw, hraw, h⟩ := bind_eq_ok_iff.mp h
        obtain ⟨arguments, harguments, h⟩ := bind_eq_ok_iff.mp h
        cases h
        obtain ⟨_, rfl, hts⟩ := hfit.2 arguments (Reader.require_eq_ok harguments)
        exact .parameterized (hfit.1 raw (Reader.require_eq_ok hraw)) hts
      · intro level n hn t h
        obtain ⟨bound, hbound, h⟩ := bind_eq_ok_iff.mp h
        obtain ⟨_, rfl, hfit⟩ := yields_wildcardShape hQ ih level n hn bound hbound
        split at h
        · cases h
          exact .subtypeOf (hfit _ rfl)
        · cases h
          exact .wildcard

end Read

section Written

variable {inner : Reader TypeRef}

/-- A class name and type arguments are read back. -/
theorem parameterizedShape_toNode {raw : ClassName} {arguments : List TypeRef}
    (hraw : raw.IsDotted) (harguments : ∀ t ∈ arguments, inner t.toJson.toNode = .ok t) :
    (parameterizedShape inner).read (none, none) (Value.object [("raw", .string raw.canonical),
      ("arguments", .array (toJsonList arguments))]).toNode = .ok (some raw, some arguments) := by
  have hnames : ((parameterizedShape inner).fields.map (·.name)).Nodup := by
    simp [parameterizedShape, Reader.Field.of]
  have harguments : Reader.array inner (Value.array (toJsonList arguments)).toNode =
      .ok arguments := by
    rw [toJsonList_eq_map]
    exact Reader.array_toNode harguments
  apply Reader.Shape.read_toNode
  rw [Reader.Shape.readMembers_cons hnames (.head _) rfl (Reader.className_toNode hraw),
    Reader.Shape.readMembers_cons hnames (.tail _ (.head _)) rfl harguments]
  rfl

/-- A bound is read back. -/
theorem wildcardShape_toNode {bound : Option TypeRef} {v : Value}
    (hbound : Reader.optional inner v.toNode = .ok bound) :
    (wildcardShape inner).read none (Value.object [("upper_bound", v)]).toNode =
      .ok (some bound) := by
  have hnames : ((wildcardShape inner).fields.map (·.name)).Nodup := by
    simp [wildcardShape]
  apply Reader.Shape.read_toNode
  rw [Reader.Shape.readMembers_cons hnames (.head _) rfl hbound]
  rfl

/-- The kinds of type references have different names. -/
theorem nodup_variants (inner : Reader TypeRef) : ((variants inner).map (·.name)).Nodup := by
  simp [variants, Reader.Variant.full]

end Written

/-- What fits is read back. -/
theorem Fits.readWithin_toNode {level : Nat} {t : TypeRef} (h : t.Fits level) {levels : Nat}
    (hle : level ≤ levels) : readWithin levels t.toJson.toNode = .ok t := by
  -- In each case the level that the choice takes is there.
  induction h generalizing levels with
  | @declared level name hname =>
    obtain ⟨levels, rfl⟩ : ∃ k, levels = k + 1 := ⟨levels - 1, by omega⟩
    rw [readWithin, TypeRef.toJson, Reader.choice_toNode (nodup_variants _) (.head _),
      Reader.className_toNode hname]
    rfl
  | @parameterized level raw arguments hraw _ ih =>
    obtain ⟨levels, rfl⟩ : ∃ k, levels = k + 1 := ⟨levels - 1, by omega⟩
    rw [readWithin, TypeRef.toJson, Reader.choice_toNode (nodup_variants _) (.tail _ (.head _)),
      parameterizedShape_toNode hraw fun t ht => ih t ht (by omega)]
    rfl
  | wildcard =>
    obtain ⟨levels, rfl⟩ : ∃ k, levels = k + 1 := ⟨levels - 1, by omega⟩
    have hread : Reader.optional (readWithin levels) Value.null.toNode = .ok none := rfl
    rw [readWithin, TypeRef.toJson,
      Reader.choice_toNode (nodup_variants _) (.tail _ (.tail _ (.head _))),
      wildcardShape_toNode hread]
    rfl
  | @subtypeOf level bound hbound ih =>
    obtain ⟨levels, rfl⟩ : ∃ k, levels = k + 1 := ⟨levels - 1, by omega⟩
    have hread : Reader.optional (readWithin levels) bound.toJson.toNode = .ok (some bound) := by
      have hobject : Reader.optional (readWithin levels) bound.toJson.toNode =
          (readWithin levels bound.toJson.toNode).map some := by
        cases bound <;> rfl
      rw [hobject, ih (by omega)]
      rfl
    rw [readWithin, TypeRef.toJson,
      Reader.choice_toNode (nodup_variants _) (.tail _ (.tail _ (.head _))),
      wildcardShape_toNode hread]
    rfl

/-- Whatever type reference is read from a plain document is read back from its written form. -/
theorem restoring_read : Reader.Restoring read toJson 0 := by
  intro level n hn t ht
  have hfits : t.Fits level := yields_readWithin Node.inherited_plainWithin _ level n hn t ht
  exact ⟨isPlain_toJson t, Nat.le_trans hfits.height_toJson (Nat.le_max_left ..),
    hfits.readWithin_toNode hn.2.2⟩

end Multibinding.TypeRef
