import Mathlib.Data.List.Induction
import Multibinding.Declaration.Load
import Multibinding.Emission.FileTree
import Multibinding.Proofs.Emission.Placement
import Multibinding.Proofs.Except

/-!
# Trees that grow

Writing generated files changes a tree by directories and by files whose texts are no indexes. So
paths lead where they led, and what can be loaded later could be loaded before, or a path leads to
it that led nowhere.

* `grows_iff_changes`: what it is to grow;
* `growing_writeTo`: writing a file makes a tree grow;
* `place_of_grows`: paths lead where they led;
* `index?_of_grows`: what index a path leads to.
-/

namespace Multibinding

/-- No index can be loaded from a text. -/
def IsNoIndex (text : String) : Prop :=
  ∀ index, DeclarationIndex.ofJsonText text ≠ .ok index

/-- How what stands at a place may change: a directory is made where nothing stood, or a file is put
that is no index. -/
inductive DiskEntry.Grows : DiskEntry → DiskEntry → Prop where
  | same (entry : DiskEntry) : Grows entry entry
  | made (e : IoError) : Grows (.absent e) .directory
  | written {entry : DiskEntry} {text : String} (hentry : entry ≠ .directory)
      (htext : IsNoIndex text) : Grows entry (.file (some text))

namespace FileTree

variable {tree later : FileTree}

/-- A tree grows into another one if this is so at every place. -/
def Grows (tree later : FileTree) : Prop :=
  ∀ place, (tree.entryAt place).Grows (later.entryAt place)

/-- A tree grows exactly if it changes by directories and by files that are no indexes. -/
theorem grows_iff_changes : tree.Grows later ↔
    Changes (fun _ entry => ∀ text, entry = .file (some text) → IsNoIndex text) tree later := by
  refine forall_congr' fun place => ⟨fun h => ?_, fun h => ?_⟩
  · generalize tree.entryAt place = entry, later.entryAt place = entry' at h ⊢
    cases h with
    | same => exact .same entry
    | made e => exact .made e nofun
    | written hentry htext =>
      exact .written hentry fun text h => by
        cases h
        exact htext
  · generalize tree.entryAt place = entry, later.entryAt place = entry' at h ⊢
    cases h with
    | same => exact .same entry
    | made e _ => exact .made e
    | written hentry hallowed => exact .written hentry (hallowed _ rfl)

theorem Grows.refl (tree : FileTree) : tree.Grows tree :=
  fun _ => .same _

theorem Grows.trans {a b c : FileTree} (hab : a.Grows b) (hbc : b.Grows c) : a.Grows c :=
  grows_iff_changes.mpr ((grows_iff_changes.mp hab).trans (grows_iff_changes.mp hbc))

/-- Whatever tree an operation finds, it makes it grow. -/
def Growing {α : Type} (act : StateM FileTree α) : Prop :=
  ∀ tree : FileTree, tree.Grows (act.run tree).2

section Growing

variable {α β : Type}

theorem growing_pure (a : α) : Growing (pure a) :=
  fun tree => .refl tree

theorem growing_bind {act : StateM FileTree α} {next : α → StateM FileTree β} (hact : Growing act)
    (hnext : ∀ a, Growing (next a)) : Growing (act >>= next) :=
  fun tree => (hact tree).trans (hnext _ _)

/-- The text of a file is written, with the directories that it stands in. -/
theorem growing_writeTo (path : String) {text : String} (htext : IsNoIndex text) :
    Growing (DirectoryFiler.writeTo disk path text) := by
  intro tree
  refine grows_iff_changes.mpr ((changes_writeTo path text tree).1.mono ?_)
  rintro place entry hputs other rfl
  obtain ⟨-, -, ⟨rfl⟩⟩ := hputs
  exact htext

end Growing

/-- Paths lead where they led. -/
theorem place_of_grows (hgrows : tree.Grows later) {path : String} {place : List String}
    (h : tree.place path = .ok place) : later.place path = .ok place :=
  (grows_iff_changes.mp hgrows).place_eq_ok h

/-- Everything in a tree stands in a directory. -/
def Closed (tree : FileTree) : Prop :=
  ∀ place step, (∀ e, tree.entryAt (place ++ [step]) ≠ .absent e) →
    tree.entryAt place = .directory

/-- What something stands below is a directory. -/
theorem directory_of_below (hclosed : tree.Closed) {start below : List String} (hne : below ≠ [])
    (h : ∀ e, tree.entryAt (start ++ below) ≠ .absent e) : tree.entryAt start = .directory := by
  -- The directory of the last step comes first, and then those further up.
  induction below using List.reverseRecOn with
  | nil => exact absurd rfl hne
  | append_singleton init step ih =>
    rw [← List.append_assoc] at h
    have hinit := hclosed (start ++ init) step h
    by_cases hnil : init = []
    · rwa [hnil, List.append_nil] at hinit
    · exact ih hnil fun e he => by cases hinit.symm.trans he

/-- So what stands in a tree can be reached by the names of the steps to it. -/
theorem follow_eq_ok (hclosed : tree.Closed) {steps start : List String} (hforth : ".." ∉ steps)
    (h : ∀ e, tree.entryAt (start ++ steps) ≠ .absent e) :
    tree.follow start steps = .ok (start ++ steps) := by
  induction steps generalizing start with
  | nil => rw [follow, List.append_nil]
  | cons step rest ih =>
    rw [List.mem_cons, not_or] at hforth
    rw [follow, directory_of_below hclosed (List.cons_ne_nil step rest) h]
    dsimp only
    rw [if_neg (Ne.symm hforth.1), ih hforth.2 (by rwa [List.append_assoc, List.singleton_append]),
      List.append_assoc, List.singleton_append]

end FileTree

/-- The index that can be loaded from what stands at a path. -/
def DiskEntry.index? : DiskEntry → Option DeclarationIndex
  | .file (some text) => (DeclarationIndex.ofJsonText text).toOption
  | .absent _ | .directory | .file none => none

/-- From a text that is no index, none can be loaded. -/
theorem DiskEntry.index?_of_isNoIndex {text : String} (h : IsNoIndex text) :
    (DiskEntry.file (some text)).index? = none := by
  rw [index?]
  cases hload : DeclarationIndex.ofJsonText text with
  | error e => rfl
  | ok index => exact absurd hload (h index)

namespace FileTree

variable {tree later final : FileTree}

/-- Loading an index changes nothing, and gives what can be loaded from what stands at the path. -/
theorem run_ofFile (tree : FileTree) (path : String) :
    ((DeclarationIndex.ofFile disk path).run tree).2 = tree ∧
      ((DeclarationIndex.ofFile disk path).run tree).1.toOption = (tree.look path).index? := by
  have hlook (next : DiskEntry → StateM FileTree (Except IoError String)) :
      (disk.look path >>= next).run tree = (next (tree.look path)).run tree := run_bind_eq _ _ _
  -- What is loaded depends on what stands at the path only.
  rw [DeclarationIndex.ofFile, run_bind_eq, Disk.readText, hlook]
  rcases tree.look path with _ | _ | _ | text
  · exact ⟨rfl, rfl⟩
  · exact ⟨rfl, rfl⟩
  · exact ⟨rfl, rfl⟩
  · refine ⟨rfl, ?_⟩
    show ((DeclarationIndex.ofJsonText text).mapError _).toOption = _
    rw [DiskEntry.index?]
    cases DeclarationIndex.ofJsonText text <;> rfl

/-- What index can be loaded from a path stays the same while a tree grows: if the path leads to a
file at first, this must be there in the end, and if it leads nowhere, it must not lead back. -/
theorem index?_of_grows (hclosed : tree.Closed) (hgrows : tree.Grows later)
    (hrest : later.Grows final) {path : String}
    (hpath : (∃ place, tree.place path = .ok place) ∨ ".." ∉ DiskPath.steps path)
    (hkept : ∀ text, tree.look path = .file text → final.look path = .file text) :
    (later.look path).index? = (tree.look path).index? := by
  cases hplace : tree.place path with
  | ok place =>
    have hlater := place_of_grows hgrows hplace
    have hfinal := place_of_grows hrest hlater
    simp only [look, hplace, hlater, hfinal] at hkept ⊢
    have hfirst := hgrows place
    have hsecond := hrest place
    generalize tree.entryAt place = entry at *
    generalize later.entryAt place = entry' at *
    generalize final.entryAt place = entry'' at *
    cases hfirst with
    | same => rfl
    | made e => rfl
    | written hentry htext =>
      rw [DiskEntry.index?_of_isNoIndex htext]
      cases entry with
      | absent e => rfl
      | directory => rfl
      | file old =>
        -- A file that was put there is there in the end, and no such file is an index.
        obtain rfl := hkept old rfl
        cases hsecond with
        | same => exact (DiskEntry.index?_of_isNoIndex htext).symm
        | written _ htext' => exact (DiskEntry.index?_of_isNoIndex htext').symm
  | error e =>
    have hforth : ".." ∉ DiskPath.steps path := by
      refine hpath.resolve_left fun h => ?_
      obtain ⟨place, h⟩ := h
      cases hplace.symm.trans h
    have hnone : (tree.look path).index? = none := by
      rw [look, hplace]
      rfl
    rw [hnone]
    cases hlater : later.place path with
    | error e =>
      rw [look, hlater]
      rfl
    | ok place =>
      obtain rfl : place = DiskPath.steps path := by
        simpa using eq_of_follow hforth hlater
      rw [look, hlater]
      dsimp only
      have hfirst := hgrows (DiskPath.steps path)
      -- A file that stood there at first could have been reached.
      have hmissing : ∃ e, tree.entryAt (DiskPath.steps path) = .absent e := by
        by_contra hsome
        have hfollow : tree.follow [] (DiskPath.steps path) = .ok (DiskPath.steps path) :=
          follow_eq_ok hclosed hforth (not_exists.mp hsome)
        cases hplace.symm.trans hfollow
      obtain ⟨e, hmissing⟩ := hmissing
      rw [hmissing] at hfirst
      generalize later.entryAt (DiskPath.steps path) = entry at hfirst ⊢
      cases hfirst with
      | same => rfl
      | made => rfl
      | written _ htext => exact DiskEntry.index?_of_isNoIndex htext

end FileTree

end Multibinding
