import Multibinding.Proofs.Binding.KeyType

/-!
# What contributions say

A contribution is made when the method is declared, a key matches, the method stands in a module and
its return type names a class. What it says is then determined by the declarations, by the key and
by that class.

* `ofMethod_eq_ok_iff`: when a contribution is made, and which;
* `describes_iff`: the same, said of the declarations alone;
* `exists_describes_iff`: what the method has to satisfy.
-/

namespace Multibinding

variable {α : Type}

/-- Adds an item to the end of a list, unless an item there is the same. -/
def insertNew (same : α → α → Bool) (kept : List α) (a : α) : List α :=
  if kept.any (same a) then kept else kept ++ [a]

/-- Items that are inserted one after another leave the first of each behind those that were there
before. -/
theorem foldl_insertNew (same : α → α → Bool) (items kept : List α) :
    items.foldl (insertNew same) kept = List.eraseDupsBy.loop same items kept.reverse := by
  induction items generalizing kept with
  | nil => simp [List.eraseDupsBy.loop]
  | cons a rest ih =>
    rw [List.foldl_cons, ih, List.eraseDupsBy.loop, insertNew, List.any_reverse]
    cases kept.any (same a) <;> simp

/-- Items that are inserted into an empty list leave the first of each. -/
theorem foldl_insertNew_nil (same : α → α → Bool) (items : List α) :
    items.foldl (insertNew same) [] = items.eraseDupsBy same :=
  foldl_insertNew same items []

namespace Contribution

/-- Adding scopes changes nothing but the scopes. -/
theorem foldl_addScope (scopes : List Annotation) (c : Contribution) :
    scopes.foldl addScope c =
      { c with scopes := scopes.foldl (insertNew Annotation.sameElement) c.scopes } := by
  induction scopes generalizing c with
  | nil => rfl
  | cons scope rest ih =>
    rw [List.foldl_cons, ih, List.foldl_cons, addScope, insertNew]
    split <;> rfl

/-- Adding modules changes nothing but the modules. -/
theorem foldl_addModule (modules : List ClassName) (c : Contribution) :
    modules.foldl addModule c =
      { c with modules := modules.foldl (insertNew (· == ·)) c.modules } := by
  induction modules generalizing c with
  | nil => rfl
  | cons name rest ih =>
    rw [List.foldl_cons, ih, List.foldl_cons, addModule, insertNew, List.any_beq]
    split <;> rfl

/-- The contribution of a method that returns a class and is bound through a key. -/
def ofKey (config : Config) (index : DeclarationIndex) (owner : ClassName) (name : String)
    (target : ClassName) (key : InjectorKey) : Contribution :=
  { container := owner
    method := name
    target
    base := some key.base
    valueType := some key.valueType
    useStringKeys := key.useStringKeys
    modules := (declaredModules config index (.method owner name)).eraseDups
    scopes := (index.metaAnnotated (.method owner name) config.markers.scope).eraseDupsBy
      Annotation.sameElement }

variable {config : Config} {index : DeclarationIndex} {registry : KeyRegistry}

/-- A contribution is made if the method is declared, a key matches, the method stands in a module,
and its return type names a class. -/
theorem ofMethod_eq_ok_iff {owner : ClassName} {name : String} {c : Contribution} :
    ofMethod config index registry owner name = .ok c ↔
      ∃ m key target, index.method? owner name = some m ∧
        matchingKey? index registry m.returnType = some key ∧
        isInModule config index (.method owner name) = true ∧
        m.returnType.rawClass? = some target ∧
        c = ofKey config index owner name target key := by
  -- One case for each check, in the order in which they are made.
  cases hm : index.method? owner name with
  | none =>
    refine iff_of_false ?_ (by simp)
    simp only [ofMethod, hm]
    exact fun h => nomatch h
  | some m =>
    cases hkey : matchingKey? index registry m.returnType with
    | none =>
      refine iff_of_false ?_ (by simp [hkey])
      simp only [ofMethod, hm, hkey]
      exact fun h => nomatch h
    | some key =>
      cases hmodule : isInModule config index (.method owner name) with
      | false =>
        refine iff_of_false ?_ (by simp)
        simp only [ofMethod, hm, hkey, hmodule]
        exact fun h => nomatch h
      | true =>
        cases htarget : m.returnType.rawClass? with
        | none =>
          refine iff_of_false ?_ (by simp [htarget])
          simp only [ofMethod, hm, hkey, hmodule, htarget]
          exact fun h => nomatch h
        | some target =>
          have hof : ofMethod config index registry owner name =
              .ok (ofKey config index owner name target key) := by
            simp only [ofMethod, hm, hkey, hmodule, htarget, foldl_addScope, foldl_addModule,
              foldl_insertNew_nil]
            rfl
          rw [hof, Except.ok.injEq]
          constructor
          · rintro rfl
            exact ⟨m, key, target, rfl, hkey, rfl, htarget, rfl⟩
          · rintro ⟨m', key', target', hm', hkey', -, htarget', rfl⟩
            cases hm'
            rw [hkey] at hkey'
            rw [htarget] at htarget'
            cases hkey'
            cases htarget'
            rfl

/-- The further modules that the annotations on a method list. -/
def modulesOn (config : Config) (annotations : List Annotation) : List ClassName :=
  match annotations.find? (·.type == config.markers.contributeInjector) with
  | some a => (a.typeList modulesArgument).filterMap TypeRef.rawClass?
  | none => []

/-- Those of the annotations on a method whose types are declared with the marker of scopes. -/
def scopesOn (config : Config) (index : DeclarationIndex) (annotations : List Annotation) :
    List Annotation :=
  annotations.filter fun a =>
    index.types.any fun u => u.name == a.type && isMarkedBy config.markers.scope u.annotations

/-- What the contribution of a method says, given the declaration of the method and of the type that
it stands in. -/
structure Describes (config : Config) (index : DeclarationIndex) (t : TypeElement)
    (m : MethodElement) (c : Contribution) : Prop where
  container : c.container = t.name
  method : c.method = m.name
  /-- The type is a module. -/
  inModule : isMarkedBy config.markers.module t.annotations
  /-- The return type of the method names the target. -/
  target : m.returnType.rawClass? = some c.target
  /-- The contribution is bound through the first key that the return type can be assigned to. -/
  key : ∃ key, IsFirstKey config index m.returnType key ∧ c.base = some key.base ∧
    c.valueType = some key.valueType ∧ c.useStringKeys = key.useStringKeys
  modules : c.modules = (modulesOn config m.annotations).eraseDups
  scopes : c.scopes = (scopesOn config index m.annotations).eraseDupsBy Annotation.sameElement

section Found

variable {t : TypeElement} {m : MethodElement} (hfound : index.method? t.name m.name = some m)
include hfound

/-- What is looked up for a method that is found are the annotations on it. -/
theorem annotationsOf_method :
    index.annotationsOf (.method t.name m.name) = m.annotations := by
  simp [DeclarationIndex.annotationsOf, hfound]

/-- The further modules of a method that is found stand on it. -/
theorem declaredModules_of_method? :
    declaredModules config index (.method t.name m.name) = modulesOn config m.annotations := by
  rw [declaredModules, DeclarationIndex.annotation?, annotationsOf_method hfound]
  rfl

/-- The scopes of a method that is found stand on it. -/
theorem metaAnnotated_of_method? :
    index.metaAnnotated (.method t.name m.name) config.markers.scope =
      scopesOn config index m.annotations := by
  rw [DeclarationIndex.metaAnnotated, annotationsOf_method hfound, scopesOn]
  refine List.filter_congr fun a _ => ?_
  rw [Bool.eq_iff_iff, DeclarationIndex.isAnnotated_type_iff]
  simp

end Found

section Declared

variable (hmethods : index.MethodsDistinct) {t : TypeElement} (ht : t ∈ index.types)
  {m : MethodElement} (hm : m ∈ t.methods)
include ht

/-- A declared method stands in a module if its type is one. -/
theorem isInModule_of_mem (name : String) :
    isInModule config index (.method t.name name) =
      isMarkedBy config.markers.module t.annotations := by
  simp [isInModule, DeclarationIndex.container?, DeclarationIndex.isAnnotated_eq,
    DeclarationIndex.annotationsOf, DeclarationIndex.type?_of_mem ht]

include hmethods hm

/-- Where the registry holds the keys of the index alone, a contribution is made exactly if there is
one to describe, and it is the one described. -/
theorem describes_iff {c : Contribution} :
    ofMethod config index (KeyCollection.into config index .empty) t.name m.name = .ok c ↔
      Describes config index t m c := by
  have hfound := DeclarationIndex.method?_of_mem hmethods ht hm
  rw [ofMethod_eq_ok_iff, hfound, isInModule_of_mem ht]
  constructor
  -- What resolving a method asks of it, and what it takes from it, is what a description says.
  · rintro ⟨m', key, target, hm', hkey, hmodule, htarget, rfl⟩
    cases hm'
    exact
      { container := rfl
        method := rfl
        inModule := hmodule
        target := htarget
        key := ⟨key, (matchingKey?_eq_some_iff hmethods).mp hkey, rfl, rfl, rfl⟩
        modules := congrArg List.eraseDups (declaredModules_of_method? hfound)
        scopes := congrArg (List.eraseDupsBy Annotation.sameElement)
          (metaAnnotated_of_method? hfound) }
  · intro h
    obtain ⟨key, hfirst, hbase, hvalue, hstyle⟩ := h.key
    refine ⟨m, key, c.target, rfl, (matchingKey?_eq_some_iff hmethods).mpr hfirst, h.inModule,
      h.target, ?_⟩
    rw [ofKey, declaredModules_of_method? hfound, metaAnnotated_of_method? hfound,
      ← h.container, ← h.method, ← hbase, ← hvalue, ← hstyle, ← h.modules, ← h.scopes]

/-- A contribution can be described exactly if a listed key is for the return type of the method,
the type is a module, and the return type names a class. -/
theorem exists_describes_iff :
    (∃ c, Describes config index t m c) ↔
      (∃ type ∈ KeyCollection.listed config index, ∃ key, IsKeyOf config index type key ∧
        index.isAssignable m.returnType (.declared key.base)) ∧
      isMarkedBy config.markers.module t.annotations ∧
      ∃ target, m.returnType.rawClass? = some target := by
  rw [← exists_isFirstKey_iff hmethods]
  constructor
  · rintro ⟨c, h⟩
    obtain ⟨key, hfirst, -⟩ := h.key
    exact ⟨⟨key, hfirst⟩, h.inModule, c.target, h.target⟩
  · rintro ⟨⟨key, hfirst⟩, hmodule, target, htarget⟩
    refine ⟨ofKey config index t.name m.name target key, (describes_iff hmethods ht hm).mp ?_⟩
    refine ofMethod_eq_ok_iff.mpr ⟨m, key, target, DeclarationIndex.method?_of_mem hmethods ht hm,
      (matchingKey?_eq_some_iff hmethods).mpr hfirst, ?_, htarget, rfl⟩
    rw [isInModule_of_mem ht]
    exact hmodule

end Declared

end Contribution

end Multibinding
