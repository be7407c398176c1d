import Multibinding.Emission.FileTree
import Multibinding.Emission.Filer
import Multibinding.Proofs.Except

/-!
# How trees change

A tree changes in two ways only: a directory is made where nothing stood, and a file is put where no
directory stands. So directories stay, and paths lead where they led. What else can be said about a
sequence of operations depends on which entries may be put where, and follows from what each of them
puts.

* `FileTree.entryAt_put`: putting an entry at one place;
* `FileTree.Changes.trans`: changes follow each other;
* `FileTree.Changes.place_eq_ok`: paths lead where they led;
* `FileTree.eq_of_follow`: where steps lead that do not lead back;
* `FileTree.confined_ensureSteps`: where directories are made.
-/

namespace Multibinding

/-- How what stands at a place may change, given which entries may be put there: a directory is made
where nothing stood, or a file is put where no directory stood. -/
inductive DiskEntry.Changes (allowed : DiskEntry → Prop) : DiskEntry → DiskEntry → Prop where
  | same (entry : DiskEntry) : Changes allowed entry entry
  | made (e : IoError) (hallowed : allowed .directory) : Changes allowed (.absent e) .directory
  | written {entry : DiskEntry} {text : String} (hentry : entry ≠ .directory)
      (hallowed : allowed (.file (some text))) : Changes allowed entry (.file (some text))

namespace DiskEntry.Changes

variable {allowed allowed' : DiskEntry → Prop} {a b c : DiskEntry}

/-- Two changes are one. -/
theorem trans (hab : Changes allowed a b) (hbc : Changes allowed b c) : Changes allowed a c := by
  cases hbc with
  | same => exact hab
  | made e hallowed =>
    cases hab with
    | same => exact .made e hallowed
  | written hentry hallowed =>
    cases hab with
    | same => exact .written hentry hallowed
    | made e _ => exact absurd rfl hentry
    | written hfirst _ => exact .written hfirst hallowed

/-- More entries may be put. -/
theorem mono (hle : ∀ entry, allowed entry → allowed' entry) (h : Changes allowed a b) :
    Changes allowed' a b := by
  cases h with
  | same => exact .same a
  | made e hallowed => exact .made e (hle _ hallowed)
  | written hentry hallowed => exact .written hentry (hle _ hallowed)

end DiskEntry.Changes

namespace FileTree

variable {tree later : FileTree}

/-- What stands at a place other than the root. -/
theorem entryAt_of_ne_nil {place : List String} (h : place ≠ []) :
    tree.entryAt place = (tree.entries.lookup place).getD (.absent .notFound) := by
  cases place with
  | nil => exact absurd rfl h
  | cons step rest => rfl

/-- An entry that is put at a place stands there, and elsewhere stands what stood there. -/
theorem entryAt_put {place : List String} (hplace : place ≠ []) (entry : DiskEntry)
    (other : List String) :
    (tree.put place entry).entryAt other = if other = place then entry else tree.entryAt other := by
  by_cases hother : other = []
  · subst hother
    rw [if_neg (Ne.symm hplace)]
    rfl
  rw [entryAt_of_ne_nil hother, entryAt_of_ne_nil hother, put]
  split
  · rename_i hsome
    -- The entry is put in place of the one that stands there.
    have hlookup : (tree.entries.map fun old : List String × DiskEntry =>
        (old.1, if old.1 = place then entry else old.2)).lookup other =
      (tree.entries.lookup other).map fun e => if other = place then entry else e := by
      induction tree.entries with
      | nil => rfl
      | cons first rest ih =>
        rw [List.map_cons, List.lookup_cons, List.lookup_cons, ih]
        by_cases hfirst : other = first.1
        · rw [beq_iff_eq.mpr hfirst, hfirst]
          rfl
        · rw [beq_eq_false_iff_ne.mpr hfirst]
    rw [hlookup]
    by_cases h : other = place
    · subst h
      obtain ⟨old, hold⟩ := Option.isSome_iff_exists.mp hsome
      simp [hold]
    · simp [h]
  · rename_i hnone
    rw [List.lookup_append, List.lookup_cons, List.lookup_nil]
    by_cases h : other = place
    · rw [Bool.not_eq_true, Option.isSome_eq_false_iff, Option.isNone_iff_eq_none] at hnone
      simp [h, hnone]
    · rw [beq_eq_false_iff_ne.mpr h, if_neg h, Option.or_none]

/-- A tree changes into another one by entries that may be put where they stand. -/
def Changes (allowed : List String → DiskEntry → Prop) (tree later : FileTree) : Prop :=
  ∀ place, DiskEntry.Changes (allowed place) (tree.entryAt place) (later.entryAt place)

namespace Changes

variable {allowed allowed' : List String → DiskEntry → Prop}

theorem refl (tree : FileTree) : Changes allowed tree tree :=
  fun _ => .same _

theorem trans {a b c : FileTree} (hab : Changes allowed a b) (hbc : Changes allowed b c) :
    Changes allowed a c :=
  fun place => (hab place).trans (hbc place)

theorem mono (hle : ∀ place entry, allowed place entry → allowed' place entry)
    (h : Changes allowed tree later) : Changes allowed' tree later :=
  fun place => (h place).mono (hle place)

/-- An entry is put at one place. -/
theorem put {place : List String} {entry : DiskEntry} (hplace : place ≠ [])
    (hentry : DiskEntry.Changes (allowed place) (tree.entryAt place) entry) :
    Changes allowed tree (tree.put place entry) := by
  intro other
  rw [entryAt_put hplace]
  by_cases h : other = place
  · rw [if_pos h, h]
    exact hentry
  · rw [if_neg h]
    exact .same _

section Paths

variable (h : Changes allowed tree later)
include h

/-- Directories stay. -/
theorem directory {place : List String} (hdirectory : tree.entryAt place = .directory) :
    later.entryAt place = .directory := by
  have hplace := h place
  rw [hdirectory] at hplace
  generalize later.entryAt place = entry at hplace
  cases hplace with
  | same => rfl
  | written hentry _ => exact absurd rfl hentry

/-- So steps lead where they led. -/
theorem follow_eq_ok {steps start place : List String}
    (hfollow : tree.follow start steps = .ok place) : later.follow start steps = .ok place := by
  induction steps generalizing start with
  | nil => exact hfollow
  | cons step rest ih =>
    rw [follow] at hfollow ⊢
    split at hfollow
    · rename_i hdirectory
      rw [h.directory hdirectory]
      exact ih hfollow
    · cases hfollow
    · cases hfollow

/-- So do paths. -/
theorem place_eq_ok {path : String} {place : List String} (hplace : tree.place path = .ok place) :
    later.place path = .ok place :=
  h.follow_eq_ok hplace

/-- A file at a path stays what it is, if no file may be put where the path leads. -/
theorem look_eq_file {path : String} {content : Option String}
    (hlook : tree.look path = .file content)
    (hkept : ∀ place other, later.place path = .ok place → ¬allowed place (.file other)) :
    later.look path = .file content := by
  cases hplace : tree.place path with
  | error e =>
    rw [look, hplace] at hlook
    cases hlook
  | ok place =>
    have hlater := h.place_eq_ok hplace
    have hentry := h place
    rw [look, hplace] at hlook
    rw [look, hlater]
    dsimp only at hlook ⊢
    rw [hlook] at hentry
    generalize later.entryAt place = entry at hentry
    -- Only another file can be put in place of a file, and none may be put here.
    cases hentry with
    | same => rfl
    | written _ hallowed => exact absurd hallowed (hkept place _ hlater)

end Paths

end Changes

/-- Steps can be followed in two parts. -/
theorem follow_append (tree : FileTree) (start first rest : List String) :
    tree.follow start (first ++ rest) =
      tree.follow start first >>= fun place => tree.follow place rest := by
  induction first generalizing start with
  | nil => rfl
  | cons step first ih =>
    rw [List.cons_append, follow, follow]
    split
    · exact ih _
    · rfl
    · rfl

/-- Steps that do not lead back lead to the place with their names. -/
theorem eq_of_follow {steps start place : List String} (hforth : ".." ∉ steps)
    (h : tree.follow start steps = .ok place) : place = start ++ steps := by
  induction steps generalizing start with
  | nil =>
    cases h
    rw [List.append_nil]
  | cons step rest ih =>
    rw [List.mem_cons, not_or] at hforth
    rw [follow] at h
    split at h
    · rw [if_neg (Ne.symm hforth.1)] at h
      rw [ih hforth.2 h, List.append_assoc, List.singleton_append]
    · cases h
    · cases h

/-- A place that is reached on the way that steps lead from the root. -/
def OnWay (tree : FileTree) (steps place : List String) : Prop :=
  ∃ first, first <+: steps ∧ tree.follow [] first = .ok place

/-- What operations may put into a tree can be said of the tree that they leave, if it stays true
however the tree changes later. -/
def Stable (allowed : FileTree → List String → DiskEntry → Prop) : Prop :=
  ∀ {any tree later}, Changes any tree later → ∀ place entry, allowed tree place entry →
    allowed later place entry

/-- Whatever tree an operation finds, it puts what is allowed. -/
def Confined {α : Type} (allowed : FileTree → List String → DiskEntry → Prop)
    (act : StateM FileTree α) : Prop :=
  ∀ tree : FileTree, Changes (allowed (act.run tree).2) tree (act.run tree).2

section Confined

variable {α β : Type} {allowed : FileTree → List String → DiskEntry → Prop}

theorem confined_pure (a : α) : Confined allowed (pure a) :=
  fun tree => .refl tree

theorem confined_bind (hstable : Stable allowed) {act : StateM FileTree α}
    {next : α → StateM FileTree β} (hact : Confined allowed act)
    (hnext : ∀ a, Confined allowed (next a)) : Confined allowed (act >>= next) := by
  intro tree
  have hrest : Changes (allowed ((act >>= next).run tree).2) (act.run tree).2
      ((act >>= next).run tree).2 := hnext _ _
  exact ((hact tree).mono (hstable hrest)).trans hrest

/-- Looking changes nothing. -/
theorem confined_look (path : String) : Confined allowed (disk.look path) :=
  fun tree => .refl tree

/-- What comes of an operation that changes a tree. -/
theorem run_changing (f : FileTree → Except IoError FileTree) (tree : FileTree) :
    (changing f).run tree =
      match f tree with
      | .ok later => (.ok (), later)
      | .error e => (.error e, tree) := by
  simp only [changing, StateT.run_bind, StateT.run_get, pure_bind]
  cases f tree <;> rfl

/-- A directory is made where nothing stands. -/
theorem confined_makeDirectory {path : String}
    (hallowed : ∀ tree place, tree.place path = .ok place → allowed tree place .directory) :
    Confined allowed (disk.makeDirectory path) := by
  intro tree
  show Changes (allowed ((changing (·.makeDirectory path)).run tree).2) tree
    ((changing (·.makeDirectory path)).run tree).2
  rw [run_changing]
  cases hmade : tree.makeDirectory path with
  | error e => exact .refl tree
  | ok later =>
    obtain ⟨place, hplace, hmade⟩ := bind_eq_ok_iff.mp hmade
    split at hmade
    · rename_i e hentry
      cases hmade
      have hne : place ≠ [] := by
        rintro rfl
        cases hentry
      have hput : Changes (fun _ _ => True) tree (tree.put place .directory) :=
        .put hne (hentry ▸ .made e trivial)
      exact .put hne (hentry ▸ .made e (hallowed _ place (hput.place_eq_ok hplace)))
    · cases hmade

/-- So a directory is made, if there is none yet. -/
theorem confined_ensureDirectory (hstable : Stable allowed) {path : String}
    (hallowed : ∀ tree place, tree.place path = .ok place → allowed tree place .directory) :
    Confined allowed (disk.ensureDirectory path) := by
  refine confined_bind hstable (confined_makeDirectory hallowed) fun made => ?_
  cases made with
  | ok => exact confined_pure _
  | error e =>
    refine confined_bind hstable
      (confined_bind hstable (confined_look path) fun _ => confined_pure _) fun found => ?_
    cases found <;> exact confined_pure _

/-- So directories are made, with those that they stand in. -/
theorem confined_ensureSteps (hstable : Stable allowed) (absolute : Bool) {steps : List String}
    (hallowed : ∀ outer, outer <:+ steps → ∀ tree place,
      tree.place (DiskPath.ofSteps absolute outer.reverse) = .ok place →
        allowed tree place .directory) :
    Confined allowed (disk.ensureSteps absolute steps) := by
  induction steps with
  | nil => exact confined_pure _
  | cons step outer ih =>
    have hlast := hallowed _ (List.suffix_refl _)
    have houter := ih fun above habove => hallowed above (habove.trans (List.suffix_cons _ _))
    refine confined_bind hstable (confined_ensureDirectory hstable hlast) fun made => ?_
    split
    · refine confined_bind hstable houter fun above => ?_
      cases above with
      | ok => exact confined_ensureDirectory hstable hlast
      | error e => exact confined_pure _
    · exact confined_pure _

end Confined

end FileTree

end Multibinding
