import Mathlib.Logic.Relation
import Multibinding.Proofs.Declaration.Enumeration

/-!
# Assignability as reachability

Whether a type can be assigned to another one is decided by a search along declared supertypes,
whatever these are: types may be their own supertypes, and supertypes need not be declared. The
search keeps the classes that it has visited apart from those that it has still to look at, and
every supertype of a visited class is one of these or those.

* `reaches_iff`: the search finds what can be reached from a pending class;
* `SupertypeSearch.exists_endsAfter`: the search turn by turn, which always ends with that answer;
* `isAssignable_iff_reachable`: what can be assigned, and how long the search takes.
-/

namespace Multibinding

open Relation (ReflTransGen)

namespace DeclarationIndex

/-- Whether a class is declared with a supertype whose class is another one. -/
def NamesSupertype (index : DeclarationIndex) (name supertype : ClassName) : Prop :=
  ∃ t ∈ index.types, t.name = name ∧ ∃ s ∈ t.supertypes, s.rawClass? = some supertype

variable {index : DeclarationIndex} {target : ClassName}

/-- The direct supertypes of a class are those that its declaration names. -/
theorem mem_directSupertypes_iff {name supertype : ClassName} :
    supertype ∈ index.directSupertypes name ↔ index.NamesSupertype name supertype := by
  rw [directSupertypes]
  constructor
  · intro h
    split at h
    next t ht =>
      obtain ⟨hmem, hname⟩ := type?_eq_some_iff.mp ht
      exact ⟨t, hmem, hname, List.mem_filterMap.mp h⟩
    next => cases h
  · rintro ⟨t, hmem, rfl, h⟩
    rw [type?_of_mem hmem]
    exact List.mem_filterMap.mpr h

instance (index : DeclarationIndex) : DecidableRel index.NamesSupertype :=
  fun _ _ => decidable_of_iff _ mem_directSupertypes_iff

/-- The visited classes of a search are not its target, and what their declarations name is visited
or pending. -/
structure Explored (index : DeclarationIndex) (target : ClassName)
    (pending visited : List ClassName) : Prop where
  ne_target : ∀ name ∈ visited, name ≠ target
  closed : ∀ name ∈ visited, ∀ supertype, index.NamesSupertype name supertype →
    supertype ∈ visited ∨ supertype ∈ pending

namespace Explored

variable {current : ClassName} {rest pending visited : List ClassName}

/-- At the start nothing has been visited. -/
theorem start (index : DeclarationIndex) (target : ClassName) (pending : List ClassName) :
    index.Explored target pending [] :=
  ⟨nofun, nofun⟩

/-- A class that was visited before need not be pending. -/
theorem skip (h : index.Explored target (current :: rest) visited) (hvisited : current ∈ visited) :
    index.Explored target rest visited where
  ne_target := h.ne_target
  closed name hname supertype hstep := by
    rcases h.closed name hname supertype hstep with hmem | hmem
    · exact Or.inl hmem
    · rcases List.mem_cons.mp hmem with rfl | hrest
      · exact Or.inl hvisited
      · exact Or.inr hrest

/-- A class is visited by making its supertypes pending. -/
theorem visit (h : index.Explored target (current :: rest) visited) (hne : current ≠ target) :
    index.Explored target (rest ++ index.directSupertypes current) (current :: visited) where
  ne_target := List.forall_mem_cons.mpr ⟨hne, h.ne_target⟩
  closed name hname supertype hstep := by
    rcases List.mem_cons.mp hname with rfl | hname
    · exact Or.inr (List.mem_append_right _ (mem_directSupertypes_iff.mpr hstep))
    · rcases h.closed name hname supertype hstep with hmem | hmem
      · exact Or.inl (List.mem_cons_of_mem _ hmem)
      · rcases List.mem_cons.mp hmem with rfl | hrest
        · exact Or.inl List.mem_cons_self
        · exact Or.inr (List.mem_append_left _ hrest)

/-- What can be reached from a visited class can be reached from a pending one. -/
theorem exists_pending (h : index.Explored target pending visited) {name : ClassName}
    (hname : name ∈ visited) (hpath : ReflTransGen index.NamesSupertype name target) :
    ∃ start ∈ pending, ReflTransGen index.NamesSupertype start target := by
  -- The path has to leave the visited classes, and the first class outside of them is pending.
  induction hpath using ReflTransGen.head_induction_on with
  | refl => exact absurd rfl (h.ne_target target hname)
  | head hstep hrest ih =>
    rcases h.closed _ hname _ hstep with hvisited | hpending
    · exact ih hvisited
    · exact ⟨_, hpending, hrest⟩

end Explored

/-- The search finds the target exactly if it can be reached from a pending class. -/
theorem reaches_iff {pending visited : List ClassName}
    (h : index.Explored target pending visited) :
    index.reaches target pending visited = true ↔
      ∃ start ∈ pending, ReflTransGen index.NamesSupertype start target := by
  induction pending, visited using reaches.induct index target with
  | case1 visited => simp [reaches]
  | case2 visited rest =>
    rw [reaches, if_pos rfl]
    exact iff_of_true rfl ⟨target, List.mem_cons_self, .refl⟩
  -- What is reached from a visited class is reached from a pending one as well.
  | case3 visited current rest hne hvisited ih =>
    rw [reaches, if_neg hne, if_pos hvisited, ih (h.skip hvisited), List.exists_mem_cons_iff]
    refine ⟨Or.inr, fun hstart => hstart.elim (fun hpath => ?_) id⟩
    exact (h.skip hvisited).exists_pending hvisited hpath
  | case4 visited current rest hne hvisited ih =>
    rw [reaches, if_neg hne, if_neg hvisited, ih (h.visit hne)]
    constructor
    · rintro ⟨start, hstart, hpath⟩
      rcases List.mem_append.mp hstart with hrest | hdirect
      · exact ⟨start, List.mem_cons_of_mem _ hrest, hpath⟩
      · exact ⟨current, List.mem_cons_self, hpath.head (mem_directSupertypes_iff.mp hdirect)⟩
    -- A path from the class itself goes through one of its supertypes, as the class is not the
    -- target.
    · rintro ⟨start, hstart, hpath⟩
      rcases List.mem_cons.mp hstart with rfl | hrest
      · exact (h.visit hne).exists_pending List.mem_cons_self hpath
      · exact ⟨start, List.mem_append_left _ hrest, hpath⟩

/-- From a single class, the search finds what can be reached from it. -/
theorem reaches_singleton_iff {start : ClassName} :
    index.reaches target [start] [] = true ↔ ReflTransGen index.NamesSupertype start target := by
  rw [reaches_iff (.start index target [start])]
  simp

end DeclarationIndex

/-- How far a search along declared supertypes has come. -/
structure SupertypeSearch where
  /-- The classes to look at, in their order. -/
  pending : List ClassName
  /-- The classes whose supertypes have been made pending. -/
  visited : List ClassName

namespace SupertypeSearch

variable (index : DeclarationIndex) (target : ClassName)

/-- One turn of the search, which gives the answer or goes on. -/
def turn (s : SupertypeSearch) : Bool ⊕ SupertypeSearch :=
  match s.pending with
  | [] => .inl false
  | current :: rest =>
    if current = target then .inl true
    else if current ∈ s.visited then .inr { s with pending := rest }
    else .inr
      { pending := rest ++ index.directSupertypes current
        visited := current :: s.visited }

/-- The search ends after a number of turns, with an answer. -/
inductive EndsAfter : SupertypeSearch → Nat → Bool → Prop
  | answer {s : SupertypeSearch} {found : Bool} (h : s.turn index target = .inl found) :
      EndsAfter s 1 found
  | next {s s' : SupertypeSearch} {turns : Nat} {found : Bool}
      (h : s.turn index target = .inr s') (hrest : EndsAfter s' turns found) :
      EndsAfter s (turns + 1) found

/-- How many turns a search can still take. -/
def bound (s : SupertypeSearch) : Nat :=
  s.pending.length + DeclarationIndex.supertypesBeyond s.visited index.types + 1

variable {index target}

/-- A turn that gives the answer gives that of the whole search. -/
theorem reaches_of_turn_eq_inl {s : SupertypeSearch} {found : Bool}
    (h : s.turn index target = .inl found) :
    index.reaches target s.pending s.visited = found := by
  obtain ⟨pending, visited⟩ := s
  cases pending with
  | nil =>
    rw [DeclarationIndex.reaches]
    exact Sum.inl.inj h
  | cons current rest =>
    rw [DeclarationIndex.reaches]
    simp only [turn] at h
    split at h
    next heq => rw [if_pos heq, Sum.inl.inj h]
    next => split at h <;> cases h

/-- A turn that goes on does not change the answer, and leaves fewer turns to take. -/
theorem reaches_of_turn_eq_inr {s s' : SupertypeSearch} (h : s.turn index target = .inr s') :
    index.reaches target s.pending s.visited = index.reaches target s'.pending s'.visited ∧
      s'.bound index < s.bound index := by
  obtain ⟨pending, visited⟩ := s
  cases pending with
  | nil => cases h
  | cons current rest =>
    simp only [turn] at h
    split at h
    next => cases h
    next hne =>
      split at h
      next hvisited =>
        obtain rfl := Sum.inr.inj h
        rw [DeclarationIndex.reaches, if_neg hne, if_pos hvisited]
        exact ⟨rfl, by simp [bound]⟩
      next hvisited =>
        obtain rfl := Sum.inr.inj h
        rw [DeclarationIndex.reaches, if_neg hne, if_neg hvisited]
        -- The supertypes that become pending are no longer beyond the visited classes.
        have hlength := index.directSupertypes_add_supertypesBeyond_le hvisited
        refine ⟨rfl, ?_⟩
        simp only [bound, List.length_append, List.length_cons]
        omega

/-- The search always ends, with the answer of the whole search. -/
theorem exists_endsAfter (index : DeclarationIndex) (target : ClassName) (s : SupertypeSearch) :
    ∃ turns ≤ s.bound index,
      EndsAfter index target s turns (index.reaches target s.pending s.visited) := by
  -- The induction is on the turns that are left, of which every turn that goes on takes one.
  induction hn : s.bound index using Nat.strongRecOn generalizing s with
  | ind n ih =>
    cases hturn : s.turn index target with
    | inl found =>
      refine ⟨1, ?_, (reaches_of_turn_eq_inl hturn).symm ▸ .answer hturn⟩
      rw [← hn, bound]
      exact Nat.succ_le_succ (Nat.zero_le _)
    | inr s' =>
      obtain ⟨hreaches, hlt⟩ := reaches_of_turn_eq_inr hturn
      obtain ⟨turns, hturns, hends⟩ := ih (s'.bound index) (hn ▸ hlt) s' rfl
      exact ⟨turns + 1, by omega, hreaches ▸ .next hturn hends⟩

end SupertypeSearch

/-- No supertype is beyond what is visited before anything is. -/
theorem DeclarationIndex.supertypesBeyond_nil (types : List TypeElement) :
    supertypesBeyond [] types = (types.flatMap (·.supertypes)).length := by
  induction types with
  | nil => rfl
  | cons t rest ih => simp [supertypesBeyond, ih]

/-- A type can be assigned to another one exactly if the bound of the latter has a class, and that
class is the root of all classes, or the bound of the former has a class from which it is reached by
going from declared classes to the classes of their supertypes, any number of times. The search that
decides this, from one class for another, ends with the right answer, and takes at most two turns
more than the declarations name supertypes. -/
theorem isAssignable_iff_reachable (index : DeclarationIndex) (subtype supertype : TypeRef) :
    (index.isAssignable subtype supertype = true ↔
      ∃ target, supertype.upperBound.rawClass? = some target ∧
        (target = .object ∨
          ∃ start, subtype.upperBound.rawClass? = some start ∧
            ReflTransGen index.NamesSupertype start target)) ∧
    ∀ start target,
      ∃ turns ≤ (index.types.flatMap (·.supertypes)).length + 2, ∃ found,
        SupertypeSearch.EndsAfter index target ⟨[start], []⟩ turns found ∧
        (found = true ↔ ReflTransGen index.NamesSupertype start target) := by
  refine ⟨?_, fun start target => ?_⟩
  · rw [DeclarationIndex.isAssignable]
    cases supertype.upperBound.rawClass? with
    | none => simp
    | some target =>
      by_cases hobject : target = .object
      · simp [hobject]
      · cases subtype.upperBound.rawClass? with
        | none => simp [hobject]
        | some start => simp [hobject, DeclarationIndex.reaches_singleton_iff]
  · obtain ⟨turns, hturns, hends⟩ :=
      SupertypeSearch.exists_endsAfter index target ⟨[start], []⟩
    -- At the start nothing has been visited, so that all supertypes that are named may be to come.
    have hbound : SupertypeSearch.bound index ⟨[start], []⟩ =
        (index.types.flatMap (·.supertypes)).length + 2 := by
      rw [SupertypeSearch.bound, DeclarationIndex.supertypesBeyond_nil, List.length_singleton]
      omega
    exact ⟨turns, hbound ▸ hturns, _, hends, DeclarationIndex.reaches_singleton_iff⟩

/-- Two classes that are supertypes of each other, of which one also has a supertype that is not
declared. -/
example :
    let a : ClassName := ⟨"com.app", "A", []⟩
    let b : ClassName := ⟨"com.app", "B", []⟩
    let c : ClassName := ⟨"com.app", "C", []⟩
    let index : DeclarationIndex :=
      { types := [⟨a, .plain, [], [.declared b], []⟩,
          ⟨b, .plain, [], [.declared a, .declared c], []⟩]
        nodup := by decide }
    index.isAssignable (.declared a) (.subtypeOf (.declared c)) = true ∧
      index.isAssignable (.declared a) (.declared ⟨"com.app", "D", []⟩) = false := by
  decide +kernel

end Multibinding
