import EbuildAudit.Scan.Report

/-!
How units pass through a scan. A dispatcher numbers them and puts them into a queue of bounded size;
workers take them from there; a merger puts the reports back into the order of the numbers. Before a
unit is queued the dispatcher takes a credit, which comes back when its report is out, so that only
so many units are under way. Each party has one next step, or none while it has to wait.
-/

namespace EbuildAudit.Scan

structure Work where
  number : Nat
  unit : ScanUnit
  children : Nat
  deriving DecidableEq, Repr

structure Rules (σ : Type) where
  /-- Whether a unit waits for the issues of the units below. -/
  collects : ScanUnit → Bool
  deposits : ScanUnit → Bool
  report : ScanUnit → List Issue → Nat → StateM σ UnitReport

structure Options where
  workers : Nat
  queue : Nat
  /-- How many units may be under way. -/
  window : Nat
  limit : Option Nat
  deriving DecidableEq, Repr

namespace Options

def ofWorkers (workers : Nat) : Options :=
  let workers := max workers 1
  ⟨workers, workers * 4, max 256 (workers * 16), none⟩

end Options

inductive Dispatcher
  | looking
  | waiting
  /-- Has a credit, and looks at the stop signal once more. -/
  | admitted
  | sending (work : Work)
  | finished (cancelled : Bool)
  deriving DecidableEq, Repr

def Dispatcher.isFinished : Dispatcher → Bool
  | .finished _ => true
  | _ => false

inductive Worker
  | idle
  | holding (work : Work)
  | depositing (work : Work) (report : UnitReport)
  | sending (number : Nat) (report : UnitReport)
  | finished
  deriving DecidableEq, Repr

def Worker.isFinished : Worker → Bool
  | .finished => true
  | _ => false

structure Deposit where
  owner : UnitId
  number : Nat
  issues : List Issue
  deriving DecidableEq, Repr

def Deposit.notAfter (a b : Deposit) : Bool :=
  a.number ≤ b.number

structure State (σ : Type) where
  rules : Rules σ
  options : Options
  store : σ
  stopped : Bool
  units : List ScanUnit
  nextNumber : Nat
  counts : List (UnitId × Nat)
  credits : Nat
  dispatcher : Dispatcher
  queue : List Work
  workers : List Worker
  deposits : List Deposit
  results : List (Nat × UnitReport)
  pending : List (Nat × UnitReport)
  nextOut : Nat
  output : Output

inductive Party
  | dispatcher
  | worker (index : Nat)
  | merger
  | stopper
  deriving DecidableEq, Repr

namespace State

def start (rules : Rules σ) (options : Options) (store : σ) (units : List ScanUnit) : State σ where
  rules
  options
  store
  stopped := options.limit == some 0
  units
  nextNumber := 0
  counts := []
  credits := max options.window 1
  dispatcher := .looking
  queue := []
  workers := List.replicate (max options.workers 1) .idle
  deposits := []
  results := []
  pending := []
  nextOut := 0
  output := .empty

def countOf (s : State σ) (id : UnitId) : Nat :=
  (s.counts.lookup id).getD 0

/-- How many units below a unit were dispatched since one of its name was; only a package has any. -/
def childrenOf (s : State σ) (unit : ScanUnit) : Nat :=
  if unit.scope = .package then s.countOf unit.id else 0

def countsAfter (s : State σ) (unit : ScanUnit) : List (UnitId × Nat) :=
  match unit.scope, unit.parent? with
  | .version, some parent =>
    (parent, s.countOf parent + 1) :: s.counts.filter (·.1 != parent)
  | .package, _ => s.counts.filter (·.1 != unit.id)
  | _, _ => s.counts

def number (s : State σ) (unit : ScanUnit) (units : List ScanUnit) : State σ :=
  { s with
    units
    nextNumber := s.nextNumber + 1
    counts := s.countsAfter unit
    dispatcher := .sending ⟨s.nextNumber, unit, s.childrenOf unit⟩ }

def stepDispatcher (s : State σ) : Option (State σ) :=
  match s.dispatcher, s.units with
  | .looking, [] => some { s with dispatcher := .finished false }
  | .looking, _ :: _ =>
    some { s with dispatcher := if s.stopped then .finished true else .waiting }
  | .waiting, _ =>
    if s.credits = 0 then none
    else some { s with credits := s.credits - 1, dispatcher := .admitted }
  | .admitted, unit :: units =>
    some (if s.stopped then { s with dispatcher := .finished true } else s.number unit units)
  | .admitted, [] => some { s with dispatcher := .finished false }
  | .sending work, _ =>
    if s.queue.length < max s.options.queue 1 then
      some { s with queue := s.queue ++ [work], dispatcher := .looking }
    else none
  | .finished _, _ => none

def setWorker (s : State σ) (index : Nat) (worker : Worker) : State σ :=
  { s with workers := s.workers.set index worker }

def depositsFor (s : State σ) (id : UnitId) : List Deposit :=
  (s.deposits.filter (·.owner == id)).mergeSort Deposit.notAfter

/-- What a unit is given of what was put aside. One that collects waits until all that was counted is. -/
def collect? (s : State σ) (work : Work) : Option (List Deposit) :=
  if s.rules.collects work.unit then
    let deposits := s.depositsFor work.unit.id
    if deposits.length < work.children then none else some deposits
  else some []

def depositsAfter (s : State σ) (work : Work) : List Deposit :=
  if s.rules.collects work.unit then s.deposits.filter (·.owner != work.unit.id) else s.deposits

def reportOf (s : State σ) (work : Work) (taken : List Deposit) : UnitReport × σ :=
  s.rules.report work.unit (taken.flatMap (·.issues)) work.children s.store

def process (s : State σ) (index : Nat) (work : Work) : Option (State σ) :=
  (s.collect? work).map fun taken =>
    let made := s.reportOf work taken
    { s with store := made.2, deposits := s.depositsAfter work }.setWorker index
      (.depositing work made.1)

def deposit? (rules : Rules σ) (work : Work) (report : UnitReport) : Option Deposit :=
  if rules.deposits work.unit then
    work.unit.parent?.map fun parent => ⟨parent, work.number, report.issues⟩
  else none

def deposit (s : State σ) (work : Work) (report : UnitReport) : State σ :=
  { s with deposits := s.deposits ++ (deposit? s.rules work report).toList }

def stepWorker (s : State σ) (index : Nat) : Option (State σ) :=
  match s.workers[index]? with
  | none | some .finished => none
  | some .idle =>
    match s.queue with
    | work :: queue => some ({ s with queue }.setWorker index (.holding work))
    | [] => if s.dispatcher.isFinished then some (s.setWorker index .finished) else none
  | some (.holding work) => s.process index work
  | some (.depositing work report) =>
    some ((s.deposit work report).setWorker index (.sending work.number report))
  | some (.sending number report) =>
    some ({ s with results := s.results ++ [(number, report)] }.setWorker index .idle)

def reachedLimit (s : State σ) : Bool :=
  s.options.limit.any (· ≤ s.output.issues.length)

def emitReport (s : State σ) (report : UnitReport) : State σ :=
  let s := { s with output := s.output.emitReport report, credits := s.credits + 1 }
  { s with stopped := s.stopped || s.reachedLimit }

def stepMerger (s : State σ) : Option (State σ) :=
  match s.pending.lookup s.nextOut with
  | some report =>
    some ({ s with
      pending := s.pending.filter (·.1 != s.nextOut)
      nextOut := s.nextOut + 1 }.emitReport report)
  | none =>
    match s.results with
    | result :: results => some { s with results, pending := result :: s.pending }
    | [] => none

def step? (s : State σ) : Party → Option (State σ)
  | .dispatcher => s.stepDispatcher
  | .worker index => s.stepWorker index
  | .merger => s.stepMerger
  | .stopper => if s.stopped then none else some { s with stopped := true }

def isFinished (s : State σ) : Bool :=
  s.dispatcher.isFinished && s.workers.all Worker.isFinished && s.results.isEmpty &&
    (s.pending.lookup s.nextOut).isNone

def cancelled (s : State σ) : Bool :=
  s.dispatcher == .finished true

/--
The parties in the order in which they are given a turn. Units are given out before any is worked on,
and of those the last one comes first, so that reports are out of order wherever they can be.
-/
def parties (s : State σ) : List Party :=
  let (idle, busy) := (List.range s.workers.length).partition fun index =>
    s.workers[index]? == some .idle
  .merger :: .dispatcher :: (idle ++ busy.reverse).map .worker

def runWithin : Nat → State σ → State σ
  | 0, s => s
  | fuel + 1, s =>
    match s.parties.findSome? s.step? with
    | some t => runWithin fuel t
    | none => s

def run (s : State σ) : State σ :=
  runWithin (10 * s.units.length + 2 * s.workers.length + 4) s

end State

def rules (plan : Plan) (grammar : Grammar) : Rules Store where
  collects unit := unit.scope == .package && (plan.checksFor .package).any (·.needsChildren)
  deposits unit := plan.aggregates && unit.scope == .version
  report := unitReport plan grammar

structure Result where
  issues : List Issue
  summary : Summary
  deriving DecidableEq, Repr

def State.result (s : State σ) : Result :=
  ⟨s.output.issues.reverse, { s.output.summary with cancelled := s.cancelled }⟩

def run (plan : Plan) (grammar : Grammar) (options : Options) (units : List ScanUnit) :
    StateM Store Result := fun store =>
  let final := (State.start (rules plan grammar) options store units).run
  (final.result, final.store)

end EbuildAudit.Scan
