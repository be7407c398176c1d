import Multibinding.Proofs.Declaration.Insertion
import Multibinding.Proofs.Declaration.Replacement
import Multibinding.Proofs.Declaration.Spelled

/-!
# The history of an index

An index comes about step by step: a text is loaded, a type is added unless its name is taken, or a
type is put under its name in any case. Since the last text that could be loaded, certain types have
been offered to the index, and they alone decide what it holds, at which place, and what becomes of
the next type.

The same steps can be done with a map from names to types that keeps its keys in the order in which
they were first set, and whose state a failed step does not take back. Such a map holds nothing but
the types of the index, each under its own name.

* `IndexStep.run_runMap`: a step with the map is the step with the index;
* `DeclarationIndex.Follows.after`: what a step does to the types that have been offered;
* `DeclarationIndex.follows_steps`: what holds after any steps.
-/

namespace Multibinding

open Json

/-- Types under keys, in the order in which the keys were first set. -/
abbrev TypeMap :=
  List (ClassName × TypeElement)

namespace TypeMap

/-- Whether a key is set. -/
def hasKey (map : TypeMap) (key : ClassName) : Bool :=
  map.any (·.1 == key)

/-- Sets the type of a key: at the place of the key, or else at the end. -/
def insert (map : TypeMap) (key : ClassName) (t : TypeElement) : TypeMap :=
  if map.hasKey key then map.map fun entry => if entry.1 = key then (key, t) else entry
  else map ++ [(key, t)]

/-- Adds a type under its name, unless the name is set. -/
def add (t : TypeElement) : ExceptT DuplicateType (StateM TypeMap) Unit := do
  if (← get).hasKey t.name then throw ⟨t.name⟩
  modify (·.insert t.name t)

end TypeMap

/-- What can be done with an index. -/
inductive IndexStep where
  /-- To load a text in place of what is there. -/
  | load (text : String)
  /-- To add a type, unless its name is taken. -/
  | add (t : TypeElement)
  /-- To put a type under its name, in place of the one that has it. -/
  | put (t : TypeElement)

namespace IndexStep

/-- Does a step with an index. -/
def run (index : DeclarationIndex) : IndexStep → Except IndexError DeclarationIndex
  | load text => DeclarationIndex.ofJsonText text
  | add t => (index.add t).mapError .duplicate
  | put t => .ok (index.put t)

/-- The index after a step. A step that fails leads to no other index. -/
def after (index : DeclarationIndex) (step : IndexStep) : DeclarationIndex :=
  (step.run index).toOption.getD index

/-- Does a step with a map. -/
def runMap : IndexStep → ExceptT IndexError (StateM TypeMap) Unit
  | load text =>
    match DeclarationIndex.readTypes.run text with
    | .error e => throw (.text e)
    | .ok types =>
      match (forM types TypeMap.add).run.run [] with
      | (.ok (), map) => set map
      | (.error e, _) => throw (.duplicate e)
  | add t => (TypeMap.add t).adapt .duplicate
  | put t => modify (·.insert t.name t)

/-- The map after a step, whether it has failed or not. -/
def afterMap (map : TypeMap) (step : IndexStep) : TypeMap :=
  (step.runMap.run.run map).2

end IndexStep

namespace DeclarationIndex

/-- The types of an index, each under its own name. -/
def entries (index : DeclarationIndex) : TypeMap :=
  index.types.map fun t => (t.name, t)

variable {index : DeclarationIndex}

/-- A key is set exactly if the name is taken. -/
theorem hasKey_entries (index : DeclarationIndex) (name : ClassName) :
    index.entries.hasKey name = (index.type? name).isSome := by
  rw [TypeMap.hasKey, entries, List.any_map, type?, List.isSome_find?]
  rfl

/-- A type that is put is set under its name. -/
theorem insert_entries (index : DeclarationIndex) (t : TypeElement) :
    index.entries.insert t.name t = (index.put t).entries := by
  rw [TypeMap.insert, hasKey_entries, put]
  split
  · simp only [entries, List.map_map]
    refine List.map_congr_left fun u _ => ?_
    by_cases h : u.name = t.name <;> simp [h]
  · simp [entries]

/-- A type is added to the map as it is added to the index. -/
theorem run_add_entries (index : DeclarationIndex) (t : TypeElement) :
    (TypeMap.add t).run.run index.entries =
      ((index.add t).map fun _ => (), ((index.add t).toOption.getD index).entries) := by
  -- What the map is asked first decides the whole run.
  show (ExceptT.run (if index.entries.hasKey t.name then throw ⟨t.name⟩
    else modify (TypeMap.insert · t.name t) : ExceptT DuplicateType (StateM TypeMap) Unit)).run
      index.entries = _
  rw [hasKey_entries, add]
  split
  next => rfl
  next h =>
    show (Except.ok (), index.entries.insert t.name t) = _
    rw [insert_entries, put, dif_neg h]
    rfl

/-- Types are added to the map as they are added to the index. If one of them cannot be added, the
map is left half filled. -/
theorem run_forM_add_entries (types : List TypeElement) (start : DeclarationIndex) :
    ((forM types TypeMap.add).run.run start.entries).1 =
        (types.foldlM DeclarationIndex.add start).map (fun _ => ()) ∧
      ∀ index, types.foldlM DeclarationIndex.add start = .ok index →
        ((forM types TypeMap.add).run.run start.entries).2 = index.entries := by
  -- The induction is on the types, whatever index they are added to; a refused one ends the run.
  induction types generalizing start with
  | nil =>
    refine ⟨rfl, fun index h => ?_⟩
    cases h
    rfl
  | cons t rest ih =>
    rw [List.forM_cons, ExceptT.run_bind, StateT.run_bind, run_add_entries, List.foldlM_cons]
    cases start.add t with
    | error e => exact ⟨rfl, nofun⟩
    | ok next => exact ih next

end DeclarationIndex

namespace IndexStep

open DeclarationIndex

/-- A step with the map of an index fails as the step with the index does, or leads to the map of
the same index. -/
theorem run_runMap (index : DeclarationIndex) (step : IndexStep) :
    step.runMap.run.run index.entries =
      ((step.run index).map fun _ => (), (step.after index).entries) := by
  cases step with
  | load text =>
    simp only [runMap, after, run, ofJsonText, ofTypes]
    cases readTypes.run text with
    | error e => rfl
    | ok types =>
      dsimp only
      -- The types are added to an empty map, which becomes the map only if none is refused.
      obtain ⟨hresult, hmap⟩ := run_forM_add_entries types empty
      have hempty : empty.entries = [] := rfl
      rw [hempty] at hresult hmap
      generalize (forM types TypeMap.add).run.run [] = filled at hresult hmap ⊢
      obtain ⟨result, map⟩ := filled
      cases hfold : types.foldlM DeclarationIndex.add empty with
      | error e =>
        rw [hfold] at hresult
        cases hresult
        rfl
      | ok next =>
        rw [hfold] at hresult
        cases hresult
        cases hmap next hfold
        rfl
  | add t =>
    show (((TypeMap.add t).run.run index.entries).1.mapError IndexError.duplicate,
      ((TypeMap.add t).run.run index.entries).2) = _
    rw [run_add_entries, after, run]
    cases index.add t <;> rfl
  | put t =>
    show (Except.ok (), index.entries.insert t.name t) = _
    rw [insert_entries]
    rfl

/-- After any steps the map holds the types of the index, each under its own name. -/
theorem foldl_afterMap (steps : List IndexStep) (index : DeclarationIndex) :
    steps.foldl afterMap index.entries = (steps.foldl after index).entries := by
  induction steps generalizing index with
  | nil => rfl
  | cons step rest ih =>
    rw [List.foldl_cons, List.foldl_cons, afterMap, run_runMap, ih]

end IndexStep

/-- A type that has been offered to an index. -/
structure Offer where
  /-- The type. -/
  type : TypeElement
  /-- Whether the type takes the place of one that has its name. -/
  replaces : Bool

/-- The type that counts for a name: the last one that replaces others, or else the first one. -/
def Offer.current (offers : List Offer) (name : ClassName) : Option TypeElement :=
  let same := offers.filter (·.type.name == name)
  ((same.filter (·.replaces)).getLast?.or same.head?).map (·.type)

/-- What has been offered after a step. Nothing but what can be loaded makes earlier offers void. -/
def IndexStep.offered (offers : List Offer) : IndexStep → List Offer
  | load text =>
    match DeclarationIndex.readTypes.run text with
    | .ok types => if (types.map (·.name)).Nodup then types.map (⟨·, false⟩) else offers
    | .error _ => offers
  | add t => offers ++ [⟨t, false⟩]
  | put t => offers ++ [⟨t, true⟩]

namespace Offer

variable (offers : List Offer) (t : TypeElement) (name : ClassName)

/-- A type that is only added counts if there is no other one. -/
theorem current_append_add : current (offers ++ [⟨t, false⟩]) name =
    (current offers name).or (if t.name = name then some t else none) := by
  by_cases h : t.name = name
  · have hsame : (offers ++ [Offer.mk t false]).filter (·.type.name == name) =
        offers.filter (·.type.name == name) ++ [⟨t, false⟩] := by
      simp [h]
    have hreplacing : [Offer.mk t false].filter (·.replaces) = [] := rfl
    rw [current, hsame, List.filter_append, hreplacing, List.append_nil, List.head?_append,
      if_pos h, current, ← Option.or_assoc, Option.map_or]
    rfl
  · simp [current, h]

/-- A type that is put counts. -/
theorem current_append_put : current (offers ++ [⟨t, true⟩]) name =
    if t.name = name then some t else current offers name := by
  by_cases h : t.name = name
  · simp [current, h]
  · simp [current, h]

/-- Among types that are only added the first one counts. -/
theorem current_map (types : List TypeElement) :
    current (types.map (⟨·, false⟩)) name = types.find? (·.name == name) := by
  have hnone : (((types.map (Offer.mk · false)).filter (·.type.name == name)).filter
      (·.replaces)) = [] := by
    simp
  -- None of the types replaces another one.
  rw [current, hnone, List.getLast?_nil, Option.none_or, List.head?_filter, List.find?_map,
    Option.map_map]
  exact congrFun Option.map_id _

end Offer

/-- A list without repetitions is kept. -/
theorem eraseDups_eq_self {α : Type} [BEq α] [LawfulBEq α] {items : List α} (h : items.Nodup) :
    items.eraseDups = items := by
  induction items with
  | nil => rfl
  | cons a rest ih =>
    obtain ⟨ha, hrest⟩ := List.nodup_cons.mp h
    have hkeep : rest.filter (fun b => !b == a) = rest := by
      refine List.filter_eq_self.mpr fun b hb => ?_
      have hne : b ≠ a := fun heq => ha (heq ▸ hb)
      simpa using hne
    rw [List.eraseDups_cons, hkeep, ih hrest]

/-- One more item is kept if it is not a repetition. -/
theorem eraseDups_append_singleton {α : Type} [DecidableEq α] (items : List α) (a : α) :
    (items ++ [a]).eraseDups =
      if a ∈ items.eraseDups then items.eraseDups else items.eraseDups ++ [a] := by
  rw [List.eraseDups_append]
  by_cases h : a ∈ items <;> simp [List.removeAll, List.eraseDups_cons, h]

namespace DeclarationIndex

/-- The names after a type is put: its own is the last one, if it is new. -/
theorem map_name_put (index : DeclarationIndex) (t : TypeElement) :
    (index.put t).types.map (·.name) =
      if t.name ∈ index.types.map (·.name) then index.types.map (·.name)
      else index.types.map (·.name) ++ [t.name] := by
  rw [put]
  by_cases h : t.name ∈ index.types.map (·.name)
  · rw [dif_pos ((index.type?_isSome_iff t.name).mpr h), if_pos h, map_name_replace]
  · rw [dif_neg fun hsome => h ((index.type?_isSome_iff t.name).mp hsome), if_neg h]
    exact List.map_append

/-- A type that is put is found under its name, and each other type as before. -/
theorem type?_put_eq (index : DeclarationIndex) (t : TypeElement) (name : ClassName) :
    (index.put t).type? name = if t.name = name then some t else index.type? name := by
  by_cases h : (index.type? t.name).isSome
  · obtain ⟨old, hold⟩ := Option.isSome_iff_exists.mp h
    obtain ⟨hmem, hname⟩ := type?_eq_some_iff.mp hold
    rw [type?_put hmem hname.symm, hname]
    simp only [eq_comm]
  · -- A type at the end is found if no other one has its name.
    have hfind : (index.put t).type? name =
        (index.type? name).or (if t.name = name then some t else none) := by
      rw [put, dif_neg h, type?, List.find?_append, type?, List.find?_singleton]
      simp
    rw [hfind]
    split
    next heq =>
      rw [← heq, Option.not_isSome_iff_eq_none.mp h]
      rfl
    next => exact Option.or_none

/-- A name that is taken: no other type is added, and one that is put stands at the same place. -/
theorem of_taken {index : DeclarationIndex} {t : TypeElement}
    (h : t.name ∈ index.types.map (·.name)) :
    index.add t = .error ⟨t.name⟩ ∧
      ∃ before old behind, index.types = before ++ old :: behind ∧ old.name = t.name ∧
        (index.put t).types = before ++ t :: behind := by
  refine ⟨dif_pos ((index.type?_isSome_iff t.name).mpr h), ?_⟩
  obtain ⟨old, hold, hname⟩ := List.mem_map.mp h
  obtain ⟨before, behind, hbefore, hafter⟩ := types_put hold hname.symm
  exact ⟨before, old, behind, hbefore, hname, hafter⟩

/-- A name that is not taken: a type is added at the end. -/
theorem of_not_taken {index : DeclarationIndex} {t : TypeElement}
    (h : t.name ∉ index.types.map (·.name)) :
    index.add t = .ok (index.put t) ∧ (index.put t).types = index.types ++ [t] := by
  have hnone := fun hsome => h ((index.type?_isSome_iff t.name).mp hsome)
  rw [add, put, dif_neg hnone, dif_neg hnone]
  exact ⟨rfl, rfl⟩

/-- The index after a type is offered to it: only a type with a new name is put. -/
theorem after_add (index : DeclarationIndex) (t : TypeElement) :
    (IndexStep.add t).after index =
      if t.name ∈ index.types.map (·.name) then index else index.put t := by
  rw [IndexStep.after, IndexStep.run]
  split
  next h =>
    rw [(of_taken h).1]
    rfl
  next h =>
    rw [(of_not_taken h).1]
    rfl

/-- The names after a type is offered to an index: they are those after it is put. -/
theorem map_name_after_add (index : DeclarationIndex) (t : TypeElement) :
    ((IndexStep.add t).after index).types.map (·.name) =
      if t.name ∈ index.types.map (·.name) then index.types.map (·.name)
      else index.types.map (·.name) ++ [t.name] := by
  rw [after_add]
  split
  next => rfl
  next h => rw [map_name_put, if_neg h]

/-- The look-up of a name after a type is offered to an index: the type is found under its name if
no other one was. -/
theorem type?_after_add (index : DeclarationIndex) (t : TypeElement) (name : ClassName) :
    ((IndexStep.add t).after index).type? name =
      (index.type? name).or (if t.name = name then some t else none) := by
  rw [after_add]
  by_cases hname : t.name = name
  · subst hname
    rw [if_pos rfl]
    -- If the name is taken, the index stays as it is, and the name is found under the other type.
    split
    next h =>
      obtain ⟨old, hold⟩ := Option.isSome_iff_exists.mp ((index.type?_isSome_iff t.name).mpr h)
      rw [hold]
      rfl
    next h =>
      have hnone := fun hsome => h ((index.type?_isSome_iff t.name).mp hsome)
      rw [type?_put_eq, if_pos rfl, Option.not_isSome_iff_eq_none.mp hnone]
      rfl
  · rw [if_neg hname, Option.or_none]
    split
    next => rfl
    next => rw [type?_put_eq, if_neg hname]

/-- A text from which types are read is loaded if no two of them have one name. -/
theorem ofJsonText_of_nodup {text : String} {types : List TypeElement}
    (hread : readTypes.run text = .ok types) (h : (types.map (·.name)).Nodup) :
    ofJsonText text = .ok ⟨types, h⟩ :=
  ofJsonText_eq_ok_iff.mpr hread

/-- Otherwise one of the types is refused. -/
theorem exists_ofJsonText_of_not_nodup {text : String} {types : List TypeElement}
    (hread : readTypes.run text = .ok types) (h : ¬(types.map (·.name)).Nodup) :
    ∃ e, ofJsonText text = .error (.duplicate e) := by
  rw [ofJsonText, hread]
  show ∃ e, (ofTypes types).mapError IndexError.duplicate = _
  cases htypes : ofTypes types with
  | error e => exact ⟨e, rfl⟩
  | ok index =>
    obtain rfl := ofTypes_eq_ok_iff.mp htypes
    exact absurd index.nodup h

/-- An index holds what has been offered: the names in the order of the first offers, and under each
name the type that counts. -/
structure Follows (index : DeclarationIndex) (offers : List Offer) : Prop where
  /-- The names stand in the order in which they were first offered. -/
  names : index.types.map (·.name) = (offers.map (·.type.name)).eraseDups
  /-- Under a name the type is found that counts for it. -/
  type? : ∀ name, index.type? name = Offer.current offers name

/-- Nothing has been offered to the empty index. -/
theorem follows_empty : empty.Follows [] where
  names := rfl
  type? _ := rfl

section Follows

variable {index : DeclarationIndex} {offers : List Offer}

/-- A type that is put takes the place of the one that has its name. -/
theorem Follows.put (h : index.Follows offers) (t : TypeElement) :
    (index.put t).Follows (offers ++ [⟨t, true⟩]) where
  names := by
    rw [map_name_put, h.names, List.map_append, List.map_singleton, eraseDups_append_singleton]
  type? name := by
    rw [type?_put_eq, Offer.current_append_put, h.type?]

/-- A type is added if its name has not been offered before. -/
theorem Follows.add (h : index.Follows offers) (t : TypeElement) :
    ((IndexStep.add t).after index).Follows (offers ++ [⟨t, false⟩]) where
  names := by
    rw [map_name_after_add, h.names, List.map_append, List.map_singleton,
      eraseDups_append_singleton]
  type? name := by
    rw [type?_after_add, Offer.current_append_add, h.type?]

/-- Types that are loaded are offered anew. -/
theorem Follows.load (h : index.Follows offers) (text : String) :
    ((IndexStep.load text).after index).Follows ((IndexStep.load text).offered offers) := by
  rw [IndexStep.after, IndexStep.run, IndexStep.offered]
  -- A text that cannot be loaded offers nothing and leaves the index as it is.
  cases hread : readTypes.run text with
  | error e =>
    rw [ofJsonText, hread]
    exact h
  | ok types =>
    by_cases hnodup : (types.map (·.name)).Nodup
    · rw [ofJsonText_of_nodup hread hnodup]
      simp only [if_pos hnodup]
      refine ⟨?_, fun name => (Offer.current_map name types).symm⟩
      rw [List.map_map]
      exact (eraseDups_eq_self hnodup).symm
    · obtain ⟨e, he⟩ := exists_ofJsonText_of_not_nodup hread hnodup
      rw [he]
      simp only [if_neg hnodup]
      exact h

/-- Every step keeps to what has been offered. -/
theorem Follows.after (h : index.Follows offers) (step : IndexStep) :
    (step.after index).Follows (step.offered offers) := by
  cases step with
  | load text => exact h.load text
  | add t => exact h.add t
  | put t => exact h.put t

/-- So do several steps. -/
theorem Follows.foldl (h : index.Follows offers) (steps : List IndexStep) :
    (steps.foldl IndexStep.after index).Follows (steps.foldl IndexStep.offered offers) := by
  -- The induction is on the steps; index and offers go along with each other.
  induction steps generalizing index offers with
  | nil => exact h
  | cons step rest ih => exact ih (h.after step)

end Follows

/-- After any steps, with an index and with a map, the map holds each type of the index under its
own name, no two types have one name, and the types are those that count, in the order in which
their names were first offered. A type can be added exactly if its name is not taken; otherwise
neither the index nor the map is changed. A type that is put stands at the place of its name.

Types that are read from a text have the names that are spelled in it, in the order of the document.
They are loaded in this order exactly if their names are different. -/
theorem follows_steps (steps : List IndexStep) :
    let index := steps.foldl IndexStep.after empty
    let map := steps.foldl IndexStep.afterMap []
    map = index.types.map (fun t => (t.name, t)) ∧
    (index.types.map (·.name)).Nodup ∧
    index.Follows (steps.foldl IndexStep.offered []) ∧
    (∀ t, t.name ∈ index.types.map (·.name) →
      index.add t = .error ⟨t.name⟩ ∧ (IndexStep.add t).after index = index ∧
      (TypeMap.add t).run.run map = (.error ⟨t.name⟩, map) ∧
      ∃ before old behind, index.types = before ++ old :: behind ∧ old.name = t.name ∧
        (index.put t).types = before ++ t :: behind) ∧
    (∀ t, t.name ∉ index.types.map (·.name) →
      index.add t = .ok (index.put t) ∧ (index.put t).types = index.types ++ [t]) ∧
    ∀ text types, readTypes.run text = .ok types →
      (∃ spelled, spelledNames? (Document.parse text).root = some spelled ∧
        spelled.mapM ClassName.parse = .ok (types.map (·.name))) ∧
      ((∃ next, ofJsonText text = .ok next) ↔ (types.map (·.name)).Nodup) ∧
      (∀ next, ofJsonText text = .ok next → next.types = types) ∧
      (¬(types.map (·.name)).Nodup → ∃ e, ofJsonText text = .error (.duplicate e)) := by
  intro index map
  -- The map goes through the same steps as the index.
  have hmap : map = index.entries := IndexStep.foldl_afterMap steps empty
  refine ⟨hmap, index.nodup, follows_empty.foldl steps, ?_, fun t => of_not_taken, ?_⟩
  · intro t htaken
    obtain ⟨hadd, hput⟩ := of_taken htaken
    refine ⟨hadd, ?_, ?_, hput⟩
    · rw [IndexStep.after, IndexStep.run, hadd]
      rfl
    · rw [hmap, run_add_entries, hadd]
      rfl
  · intro text types hread
    have hnext : ∀ next, ofJsonText text = .ok next → next.types = types := by
      intro next hload
      rw [ofJsonText_eq_ok_iff, hread] at hload
      exact (Except.ok.inj hload).symm
    refine ⟨?_, ⟨?_, ?_⟩, hnext, exists_ofJsonText_of_not_nodup hread⟩
    · exact exists_spelledNames? (Reader.read_root_of_run hread)
    · rintro ⟨next, hload⟩
      exact hnext next hload ▸ next.nodup
    · exact fun hnodup => ⟨_, ofJsonText_of_nodup hread hnodup⟩

/-- A type is refused where its name is taken, and another one is put at the place of that name. -/
example :
    let type (name : String) (kind : TypeKind) : TypeElement :=
      { name := ⟨"com.app", name, []⟩, kind, annotations := [], supertypes := [], methods := [] }
    ([.add (type "A" .plain), .put (type "B" .plain), .add (type "B" .annotationType),
        .put (type "A" .interface)].foldl IndexStep.after empty).types =
      [type "A" .interface, type "B" .plain] := by
  rfl

end DeclarationIndex

end Multibinding
