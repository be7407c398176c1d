import Multibinding.Json.Read
import Multibinding.Proofs.Entries
import Multibinding.Proofs.Except
import Multibinding.Proofs.Json.Place
import Multibinding.Proofs.Keyed

/-!
# What is read from documents that differ at a place

Two documents differ at a place, in a value that is read in any case. What the readers around the
place make of the two documents then differs in what they make of this value only: the other items
of an array, the other keys of a map and the other fields of a record are the same. This is shown
for every step into an array, a map or a record, so that it holds for all the way from the root of a
document to the place.

* `Reader.Updates`: what is read from a node is read from another one up to a value;
* `Reader.Updates.item`, `Reader.Updates.entry`, `Reader.Updates.field`: the steps;
* `Reader.Updates.bind`: what is made of a result.
-/

namespace Multibinding.Json

open Document

/-- A step from a value to one that it holds. -/
inductive Step where
  /-- To an item of an array. -/
  | item (position : Nat)
  /-- To the value of a key. -/
  | entry (key : String)
  /-- To a field of a record, which has a name and a position. -/
  | field (name : String) (position : Nat)

namespace Step

/-- The value that is due in a frame is the one that a step leads to. -/
def Fits : Step → Frame → Prop
  | .item position, .items done => done.length = position
  | .entry key, .members _ key' => key' = .text key
  | .field _ position, .items done => done.length = position
  | .field name _, .members _ key => key = .text name
  | .item _, .members .. => False
  | .entry _, .items _ => False

/-- A value stands in another one, where a step leads to it. -/
inductive Around : Step → (Node → Node) → Prop where
  | item (before behind : List Node) (unclosed : Option Defect) :
    Around (.item before.length) fun n => .array (before ++ n :: behind) unclosed
  | entry (before : List (Key × Node)) (key : String) (behind : List (Key × Node))
    (closing : Closing Node) :
    Around (.entry key) fun n => .object (before ++ (.text key, n) :: behind) closing
  | fieldItem (name : String) (before behind : List Node) (unclosed : Option Defect) :
    Around (.field name before.length) fun n => .array (before ++ n :: behind) unclosed
  | fieldMember (name : String) (position : Nat) (before behind : List (Key × Node))
    (closing : Closing Node) :
    Around (.field name position) fun n => .object (before ++ (.text name, n) :: behind) closing

/-- A value stands in a document, where steps lead to it that are given from the last one to the
first one. -/
inductive Path : List Step → (Node → Node) → Prop where
  | nil : Path [] id
  | cons {step : Step} {steps : List Step} {wrap context : Node → Node} (hstep : step.Around wrap)
    (hsteps : Path steps context) : Path (step :: steps) (context ∘ wrap)

/-- Where there is room, what is completed around a value holds it where the step leads to. -/
theorem Fits.around {step : Step} {frame : Frame} {outer : List Frame} {wrap : Node → Node}
    (h : step.Fits frame) (hwrap : frame.Wraps outer wrap) (hdepth : outer.length < maxDepth) :
    step.Around wrap := by
  have hcontainer (content : Node → Node) :
      (fun n => container (content n) outer) = content :=
    funext fun n => if_neg (Nat.not_le.mpr hdepth)
  cases hwrap with
  | items done behind unclosed =>
    rw [hcontainer]
    cases step with
    | item position =>
      obtain rfl : done.reverse.length = position := done.length_reverse.trans h
      exact .item done.reverse behind unclosed
    | field name position =>
      obtain rfl : done.reverse.length = position := done.length_reverse.trans h
      exact .fieldItem name done.reverse behind unclosed
    | entry key => exact h.elim
  | members done key behind closing =>
    rw [hcontainer]
    cases step with
    | item position => exact h.elim
    | field name position =>
      cases h
      exact .fieldMember name position done.reverse behind closing
    | entry key =>
      cases h
      exact .entry done.reverse key behind closing

/-- Where there is room, what closes a stack holds a value where the steps lead to. -/
theorem path_of_closes {steps : List Step} {stack : List Frame} {context : Node → Node}
    (hfits : List.Forall₂ Fits steps stack) (hcloses : Closes stack context)
    (hdepth : stack.length ≤ maxDepth) : Path steps context := by
  -- There is room for the frames further out, which are fewer.
  induction hcloses generalizing steps with
  | nil =>
    cases hfits
    exact .nil
  | cons hwrap hcontext ih =>
    cases hfits with
    | cons hfirst hrest =>
      exact .cons (hfirst.around hwrap hdepth) (ih hrest (Nat.le_of_succ_le hdepth))

end Step

namespace Reader

variable {α β σ : Type}

/-- A change of the fields that have been read does not concern a field. -/
structure Field.Ignores (field : Field σ) (change : σ → σ) : Prop where
  isSet : ∀ s, field.isSet (change s) = field.isSet s
  read : ∀ s n, field.read (change s) n = (field.read s n).map change

/-- A change does not concern a field if it goes without the value of the field. -/
theorem Field.ignores_of {change : σ → σ} {name : String} {get : σ → Option α}
    {set : σ → α → σ} {read : Reader α} (hget : ∀ s, get (change s) = get s)
    (hset : ∀ s a, set (change s) a = change (set s a)) :
    (Field.of name get set read).Ignores change where
  isSet s := congrArg Option.isSome (hget s)
  read s n := by
    show (read n).map (set (change s)) = ((read n).map (set s)).map change
    cases read n with
    | error e => rfl
    | ok a => exact congrArg Except.ok (hset s a)

namespace Shape

variable {shape : Shape σ}

/-- What one more member makes of the fields that have been read. -/
inductive Takes (shape : Shape σ) (s : σ) : Key × Node → σ → Prop where
  /-- A member that is no field is skipped. -/
  | skip {name : String} {n : Node} (hfind : shape.fields.find? (·.name == name) = none)
    (hskip : n.skip = .ok ()) : Takes shape s (.text name, n) s
  /-- A field that has not been read is read. -/
  | read {name : String} {n : Node} {field : Field σ} {t : σ}
    (hfind : shape.fields.find? (·.name == name) = some field) (hset : field.isSet s = false)
    (hread : field.read s n = .ok t) : Takes shape s (.text name, n) t

/-- The members of a record are taken one after the other. -/
theorem readMembers_cons_eq_ok_iff {s t : σ} {m : Key × Node} {rest : List (Key × Node)} :
    shape.readMembers s (m :: rest) = .ok t ↔
      ∃ s', shape.Takes s m s' ∧ shape.readMembers s' rest = .ok t := by
  obtain ⟨key, n⟩ := m
  constructor
  · intro h
    -- Each branch of the reader that does not fail is one of the two ways to take a member.
    cases key with
    | unpaired => cases h
    | text name =>
      rw [readMembers] at h
      obtain ⟨_, ⟨rfl⟩, h⟩ := bind_eq_ok_iff.mp h
      split at h
      · rename_i hfind
        split at h
        · rename_i hskip
          exact ⟨s, .skip hfind hskip, h⟩
        · cases h
      · rename_i field hfind
        split at h
        · cases h
        · rename_i hset
          obtain ⟨s', hs', h⟩ := bind_eq_ok_iff.mp h
          exact ⟨s', .read hfind (Bool.eq_false_of_not_eq_true hset) hs', h⟩
  · rintro ⟨s', htakes, h⟩
    cases htakes with
    | skip hfind hskip =>
      rw [readMembers]
      refine bind_eq_ok_iff.mpr ⟨_, rfl, ?_⟩
      simp only [hfind, hskip, h]
    | read hfind hset hread =>
      rw [readMembers]
      refine bind_eq_ok_iff.mpr ⟨_, rfl, ?_⟩
      simp only [hfind, hset, Bool.false_eq_true, if_false]
      exact bind_eq_ok_iff.mpr ⟨s', hread, h⟩

/-- The fields of a record have different names, and those that have been read stay so. -/
structure Lasting (shape : Shape σ) : Prop where
  names : (shape.fields.map (·.name)).Nodup
  sets : ∀ field ∈ shape.fields, ∀ s n t, field.read s n = .ok t → field.isSet t
  keeps : ∀ field ∈ shape.fields, ∀ other ∈ shape.fields, ∀ s n t,
    field.read s n = .ok t → other.isSet s → other.isSet t

/-- A change of the fields that have been read concerns no field but one, and does not unset
that. -/
structure Concerns (shape : Shape σ) (target : Field σ) (change : σ → σ) : Prop where
  isSet : ∀ s, target.isSet (change s) = target.isSet s
  ignores : ∀ field ∈ shape.fields, field.name ≠ target.name → field.Ignores change

section Change

variable {target : Field σ} {change : σ → σ} (hlasting : shape.Lasting)
  (htarget : target ∈ shape.fields) (hchange : shape.Concerns target change)
include hlasting htarget hchange

/-- Once the field has been read, every other member is taken as before. -/
theorem Takes.changed {s t : σ} {m : Key × Node} (h : shape.Takes s m t) (hset : target.isSet s) :
    target.isSet t ∧ shape.Takes (change s) m (change t) := by
  cases h with
  | skip hfind hskip => exact ⟨hset, .skip hfind hskip⟩
  | read hfind hfieldSet hread =>
    rename_i field
    have hfield := List.mem_of_find?_eq_some hfind
    -- The field is not read twice.
    have hne : field.name ≠ target.name := by
      intro heq
      rw [List.inj_on_of_nodup_map hlasting.names hfield htarget heq, hset] at hfieldSet
      cases hfieldSet
    refine ⟨hlasting.keeps field hfield target htarget s _ t hread hset,
      .read hfind (((hchange.ignores field hfield hne).isSet s).trans hfieldSet) ?_⟩
    rw [(hchange.ignores field hfield hne).read, hread]
    rfl

/-- Once the field has been read, all other members are taken as before. -/
theorem readMembers_change {members : List (Key × Node)} {s t : σ} (hset : target.isSet s)
    (h : shape.readMembers s members = .ok t) :
    shape.readMembers (change s) members = .ok (change t) := by
  -- The induction carries along that the field is set, so that no later member is taken for it.
  induction members generalizing s with
  | nil =>
    cases h
    rfl
  | cons m rest ih =>
    obtain ⟨s', htakes, h⟩ := readMembers_cons_eq_ok_iff.mp h
    obtain ⟨hset', htakes⟩ := htakes.changed hlasting htarget hchange hset
    exact readMembers_cons_eq_ok_iff.mpr ⟨_, htakes, ih hset' h⟩

omit hlasting htarget in
/-- Behind the field, all other fields of a list are read as before. -/
theorem readItems_change {fields : List (Field σ)} (hfields : fields ⊆ shape.fields)
    (hne : ∀ field ∈ fields, field.name ≠ target.name) {count : Nat} {s t : σ} {items : List Node}
    {unclosed : Option Defect} (h : shape.readItems count s fields items unclosed = .ok t) :
    shape.readItems count (change s) fields items unclosed = .ok (change t) := by
  induction fields generalizing count s items with
  | nil =>
    cases items with
    | nil =>
      obtain ⟨_, hclose, h⟩ := bind_eq_ok_iff.mp h
      cases h
      exact bind_eq_ok_iff.mpr ⟨_, hclose, rfl⟩
    | cons n rest => cases h
  | cons field fields ih =>
    cases items with
    | nil =>
      obtain ⟨_, hclose, h⟩ := bind_eq_ok_iff.mp h
      refine bind_eq_ok_iff.mpr ⟨_, hclose, ?_⟩
      split at h
      · cases h
      · rename_i hcount
        cases h
        exact if_neg hcount
    | cons n rest =>
      obtain ⟨hfield, hfields⟩ := List.cons_subset.mp hfields
      obtain ⟨hfirst, hne⟩ := List.forall_mem_cons.mp hne
      obtain ⟨s', hs', h⟩ := bind_eq_ok_iff.mp h
      refine bind_eq_ok_iff.mpr ⟨_, ?_, ih hfields hne h⟩
      rw [(hchange.ignores field hfield hfirst).read, hs']
      rfl

end Change

end Shape

/-- What is read from one node is, for some value, updated with it in what is read from another
one. -/
def Updates (read : Reader α) (update : β → α → α) (old new : Node) : Prop :=
  ∀ a, read old = .ok a → ∃ x, read new = .ok (update x a)

variable {read : Reader α} {update : β → α → α} {old new : Node}

/-- What is made of a result is updated if the result is. -/
theorem Updates.bind {inner : Reader σ} {change : β → σ → σ} (h : Updates inner change old new)
    {f : σ → Except ReadError α} (hf : ∀ x s, f (change x s) = (f s).map (update x)) :
    Updates (fun n => inner n >>= f) update old new := by
  intro a ha
  obtain ⟨s, hs, ha⟩ := bind_eq_ok_iff.mp ha
  obtain ⟨x, hx⟩ := h s hs
  refine ⟨x, bind_eq_ok_iff.mpr ⟨_, hx, ?_⟩⟩
  rw [hf, ha]
  rfl

/-- What is read from a whole document is updated if what is read from its value is. -/
theorem Updates.document {trailing : Bool} (h : Updates read update old new) {a : α}
    (ha : document read ⟨old, trailing⟩ = .ok a) :
    ∃ x, document read ⟨new, trailing⟩ = .ok (update x a) := by
  obtain ⟨a', ha', hend⟩ := bind_eq_ok_iff.mp ha
  cases trailing with
  | true => cases hend
  | false =>
    cases hend
    obtain ⟨x, hx⟩ := h a ha'
    exact ⟨x, bind_eq_ok_iff.mpr ⟨_, hx, rfl⟩⟩

/-- A field is updated if what is read of it is. -/
theorem Updates.of {change : β → σ → σ} {name : String} {get : σ → Option α}
    {set : σ → α → σ} (h : Updates read update old new)
    (hset : ∀ x s a, change x (set s a) = set s (update x a)) (s : σ) :
    Updates ((Field.of name get set read).read s) change old new := by
  intro t ht
  obtain ⟨a, ha, rfl⟩ := map_eq_ok_iff.mp ht
  obtain ⟨x, hx⟩ := h a ha
  exact ⟨x, map_eq_ok_iff.mpr ⟨_, hx, (hset x s a).symm⟩⟩

variable {wrap : Node → Node}

/-- Only one item of an array is updated. -/
theorem Updates.item {position : Nat} (hstep : (Step.item position).Around wrap)
    (h : Updates read update old new) :
    Updates (array read) (fun x as => as.modify position (update x)) (wrap old) (wrap new) := by
  cases hstep with
  | item before behind unclosed =>
    intro as has
    obtain ⟨items, hitems, has⟩ := bind_eq_ok_iff.mp has
    obtain ⟨_, hclose, has⟩ := bind_eq_ok_iff.mp has
    cases has
    obtain ⟨first, a, rest, rfl, hlength, ha, hother⟩ := exists_of_mapM_append_cons hitems
    obtain ⟨x, hx⟩ := h a ha
    refine ⟨x, bind_eq_ok_iff.mpr ⟨_, hother new _ hx, bind_eq_ok_iff.mpr ⟨_, hclose, ?_⟩⟩⟩
    rw [← hlength]
    exact congrArg Except.ok
      (List.modifyTailIdx_add (List.modifyHead (update x)) 0 first (a :: rest)).symm

/-- Only the value of one key is updated. -/
theorem Updates.entry {key : String} (hstep : (Step.entry key).Around wrap)
    (h : ∀ a, read old = .ok a → ∃ x, read new = .ok x) :
    Updates (entries read) (Entries.replace key) (wrap old) (wrap new) := by
  cases hstep with
  | entry before _ behind closing =>
    intro es hes
    obtain ⟨members, hmembers, hes⟩ := bind_eq_ok_iff.mp hes
    obtain ⟨_, hclose, hes⟩ := bind_eq_ok_iff.mp hes
    cases hes
    obtain ⟨first, e, rest, rfl, -, he, hother⟩ := exists_of_mapM_append_cons hmembers
    obtain ⟨_, ⟨rfl⟩, he⟩ := bind_eq_ok_iff.mp he
    obtain ⟨a, ha, he⟩ := bind_eq_ok_iff.mp he
    cases he
    obtain ⟨b, hb⟩ := h a ha
    -- A later member may have the same key, and then it is the one that counts.
    obtain ⟨x, hx⟩ := Entries.exists_ofList_eq_replace first key a b rest
    refine ⟨x, bind_eq_ok_iff.mpr ⟨first ++ (key, b) :: rest, hother (.text key, new) _ ?_,
      bind_eq_ok_iff.mpr ⟨_, hclose, congrArg Except.ok hx⟩⟩⟩
    exact bind_eq_ok_iff.mpr ⟨key, rfl, bind_eq_ok_iff.mpr ⟨b, hb, rfl⟩⟩

section Record

variable {shape : Shape σ} {target : Field σ} {change : β → σ → σ} (hlasting : shape.Lasting)
  (hchange : ∀ x, shape.Concerns target (change x))
  (hread : ∀ s, Updates (target.read s) change old new)
include hlasting hchange hread

/-- In a record that is given as an object, only one field is updated. -/
theorem exists_readMembers (htarget : target ∈ shape.fields) {before behind : List (Key × Node)}
    {s t : σ}
    (h : shape.readMembers s (before ++ (.text target.name, old) :: behind) = .ok t) :
    ∃ x, shape.readMembers s (before ++ (.text target.name, new) :: behind) = .ok (change x t) := by
  -- Up to the field the same members are taken in both records.
  induction before generalizing s with
  | nil =>
    obtain ⟨s', htakes, h⟩ := Shape.readMembers_cons_eq_ok_iff.mp h
    have htargetFind : shape.fields.find? (·.name == target.name) = some target :=
      (find?_key_eq_some_iff hlasting.names).mpr ⟨htarget, rfl⟩
    cases htakes with
    | skip hfind => cases htargetFind.symm.trans hfind
    | read hfind hset hs' =>
      cases htargetFind.symm.trans hfind
      obtain ⟨x, hx⟩ := hread s s' hs'
      refine ⟨x, Shape.readMembers_cons_eq_ok_iff.mpr ⟨_, .read htargetFind hset hx, ?_⟩⟩
      exact Shape.readMembers_change hlasting htarget (hchange x)
        (hlasting.sets target htarget s old s' hs') h
  | cons m before ih =>
    obtain ⟨s', htakes, h⟩ := Shape.readMembers_cons_eq_ok_iff.mp h
    obtain ⟨x, hx⟩ := ih h
    exact ⟨x, Shape.readMembers_cons_eq_ok_iff.mpr ⟨s', htakes, hx⟩⟩

omit hlasting in
/-- In a record that is given as a list, only one field is updated. -/
theorem exists_readItems {fields : List (Field σ)} (hfields : fields ⊆ shape.fields)
    (hnames : (fields.map (·.name)).Nodup) {before behind : List Node}
    (htarget : fields[before.length]? = some target) {count : Nat} {s t : σ}
    {unclosed : Option Defect}
    (h : shape.readItems count s fields (before ++ old :: behind) unclosed = .ok t) :
    ∃ x, shape.readItems count s fields (before ++ new :: behind) unclosed =
      .ok (change x t) := by
  -- Each item before the value uses up one of the fields before the field.
  induction before generalizing fields count s with
  | nil =>
    cases fields with
    | nil => cases htarget
    | cons field fields =>
      cases htarget
      obtain ⟨s', hs', h⟩ := bind_eq_ok_iff.mp h
      obtain ⟨x, hx⟩ := hread s s' hs'
      have hne : ∀ field ∈ fields, field.name ≠ target.name := fun field hfield heq =>
        (List.nodup_cons.mp hnames).1 (List.mem_map.mpr ⟨field, hfield, heq⟩)
      exact ⟨x, bind_eq_ok_iff.mpr ⟨_, hx,
        Shape.readItems_change (hchange x) (List.cons_subset.mp hfields).2 hne h⟩⟩
  | cons n before ih =>
    cases fields with
    | nil => cases htarget
    | cons field fields =>
      obtain ⟨s', hs', h⟩ := bind_eq_ok_iff.mp h
      obtain ⟨x, hx⟩ := ih (List.cons_subset.mp hfields).2 (List.nodup_cons.mp hnames).2 htarget h
      exact ⟨x, bind_eq_ok_iff.mpr ⟨s', hs', hx⟩⟩

/-- Only one field of a record is updated. -/
theorem Updates.field {position : Nat} (htarget : shape.fields[position]? = some target)
    (hstep : (Step.field target.name position).Around wrap) (init : σ) :
    Updates (shape.read init) change (wrap old) (wrap new) := by
  intro t ht
  -- A list gives the field by its position, and an object by its name.
  generalize hname : target.name = name at hstep
  cases hstep with
  | fieldItem _ before behind unclosed =>
    exact exists_readItems hchange hread (List.Subset.refl _) hlasting.names htarget ht
  | fieldMember _ _ before behind closing =>
    subst hname
    obtain ⟨s, hs, ht⟩ := bind_eq_ok_iff.mp ht
    obtain ⟨_, hclose, ht⟩ := bind_eq_ok_iff.mp ht
    cases ht
    obtain ⟨x, hx⟩ := exists_readMembers hlasting hchange hread (List.mem_of_getElem? htarget) hs
    exact ⟨x, bind_eq_ok_iff.mpr ⟨_, hx, bind_eq_ok_iff.mpr ⟨_, hclose, rfl⟩⟩⟩

end Record

end Reader

end Multibinding.Json
