import Multibinding.Round

/-!
# Sessions

A session is a processor at work: it runs a round over one index after another, adds the reports of
each round to those made so far, and hands all files to one filer. The filer is any function with a
state of its own, so that its answers may follow any pattern.

* `handOver_noting`: noting what a filer is handed changes neither its answers nor its state;
* `round_eq`: a round is its plan together with the answers of the filer to the files of the plan;
* `filing_run`, `handed_eq`: a run hands over the files of its plans, one round after another.
-/

namespace Multibinding

open Java (SourceFile)

variable {σ : Type}

/-- A filer that also notes each file that it is handed, and whether it has taken it. -/
def Filer.noting (write : Filer (StateM σ)) : Filer (StateM (List (SourceFile × Bool) × σ)) :=
  fun file => do
    let (notes, s) ← get
    let (result, s) := (write file).run s
    set (notes ++ [(file, result.toBool)], s)
    return result

namespace Processor

/-- What the rounds over several indexes do, one after another. A plan does not depend on what
becomes of its files, and neither do those that follow it. -/
def plans (p : Processor) : List DeclarationIndex → List RoundPlan
  | [] => []
  | index :: rest => p.plan index :: (p.after (p.plan index)).plans rest

variable (write : Filer (StateM σ))

@[simp]
theorem handOver_nil (s : σ) : (handOver write []).run s = ([], s) := rfl

/-- The first file is answered first, and the others in the state that this leaves. -/
theorem handOver_cons (file : SourceFile) (rest : List SourceFile) (s : σ) :
    (handOver write (file :: rest)).run s =
      (((write file).run s).1.toBool :: ((handOver write rest).run ((write file).run s).2).1,
        ((handOver write rest).run ((write file).run s).2).2) := rfl

/-- Each file that is handed over is answered. -/
@[simp]
theorem length_handOver (files : List SourceFile) (s : σ) :
    ((handOver write files).run s).1.length = files.length := by
  induction files generalizing s with
  | nil => rfl
  | cons file rest ih => simp [handOver_cons, ih]

/-- Files can be handed over in two parts. -/
theorem handOver_append (first second : List SourceFile) (s : σ) :
    (handOver write (first ++ second)).run s =
      (((handOver write first).run s).1 ++
          ((handOver write second).run ((handOver write first).run s).2).1,
        ((handOver write second).run ((handOver write first).run s).2).2) := by
  induction first generalizing s with
  | nil => rfl
  | cons file rest ih => simp only [List.cons_append, handOver_cons, ih]

/-- Noting what a filer is handed changes neither its answers nor its state. -/
theorem handOver_noting (files : List SourceFile) (notes : List (SourceFile × Bool)) (s : σ) :
    (handOver write.noting files).run (notes, s) =
      (((handOver write files).run s).1, notes ++ files.zip ((handOver write files).run s).1,
        ((handOver write files).run s).2) := by
  induction files generalizing notes s with
  | nil => simp
  | cons file rest ih =>
    have hfile : (write.noting file).run (notes, s) =
        (((write file).run s).1, notes ++ [(file, ((write file).run s).1.toBool)],
          ((write file).run s).2) := rfl
    simp only [handOver_cons, hfile, ih, List.zip_cons_cons, List.append_assoc,
      List.singleton_append]

end Processor

/-- A processor at work with a filer whose state is of some type. -/
structure Session (σ : Type) where
  /-- The processor. -/
  processor : Processor
  /-- The reports made so far. -/
  reports : List Diagnostic
  /-- The state of the filer. -/
  filing : σ

namespace Session

/-- The session of a new processor. -/
def start (config : Config) (filing : σ) : Session σ :=
  { processor := .ofConfig config, reports := [], filing }

/-- Runs a round over an index. -/
def round (write : Filer (StateM σ)) (s : Session σ) (index : DeclarationIndex) :
    RoundOutcome × Session σ :=
  let ((outcome, reports, processor), filing) :=
    (s.processor.processRound write index).run s.filing
  (outcome, { processor, reports := s.reports ++ reports, filing })

/-- Runs a round over each of several indexes. -/
def run (write : Filer (StateM σ)) (s : Session σ) :
    List DeclarationIndex → List RoundOutcome × Session σ
  | [] => ([], s)
  | index :: rest =>
    let (outcome, s) := s.round write index
    let (outcomes, s) := run write s rest
    (outcome :: outcomes, s)

/-- The files that rounds over several indexes hand to the filer, and whether it takes them. -/
def handed (write : Filer (StateM σ)) (s : Session σ) (indexes : List DeclarationIndex) :
    List (SourceFile × Bool) :=
  (({ s with filing := ([], s.filing) } : Session _).run write.noting indexes).2.filing.1

variable (write : Filer (StateM σ))

/-- A round is its plan together with the answers of the filer to the files of the plan. -/
theorem round_eq (s : Session σ) (index : DeclarationIndex) :
    s.round write index =
      let plan := s.processor.plan index
      let answer := (Processor.handOver write plan.files).run s.filing
      (s.processor.outcome plan answer.1,
        { processor := s.processor.after plan
          reports := s.reports ++ plan.diagnostics
          filing := answer.2 }) := rfl

/-- A run hands over the files of its plans, one round after another. -/
theorem filing_run (s : Session σ) (indexes : List DeclarationIndex) :
    (s.run write indexes).2.filing =
      ((Processor.handOver write
        ((s.processor.plans indexes).flatMap (·.files))).run s.filing).2 := by
  induction indexes generalizing s with
  | nil => rfl
  | cons index rest ih =>
    simp [run, Processor.plans, Processor.handOver_append, ih, round_eq]

/-- The files of the plans of a run are handed over with the answers of the filer. -/
theorem handed_eq (s : Session σ) (indexes : List DeclarationIndex) :
    s.handed write indexes =
      ((s.processor.plans indexes).flatMap (·.files)).zip
        ((Processor.handOver write
          ((s.processor.plans indexes).flatMap (·.files))).run s.filing).1 := by
  rw [handed, filing_run, Processor.handOver_noting, List.nil_append]

/-- One round hands over the files of its plan. -/
theorem handed_singleton (s : Session σ) (index : DeclarationIndex) :
    s.handed write [index] =
      (s.processor.plan index).files.zip
        ((Processor.handOver write (s.processor.plan index).files).run s.filing).1 := by
  rw [handed_eq, Processor.plans, Processor.plans, List.flatMap_singleton]

/-- One round hands over each file of its plan once and in its order. -/
theorem map_fst_handed_singleton (s : Session σ) (index : DeclarationIndex) :
    (s.handed write [index]).map (·.1) = (s.processor.plan index).files := by
  rw [handed_singleton, List.map_fst_zip]
  simp

end Session

end Multibinding
