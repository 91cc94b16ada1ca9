import EbuildAudit.Scan.Protocol

namespace EbuildAudit.Scan

structure Made where
  work : Work
  taken : List Deposit
  report : UnitReport

namespace Made

def children (m : Made) : List Issue :=
  m.taken.flatMap (·.issues)

def numbered (m : Made) : Nat × UnitReport :=
  (m.work.number, m.report)

end Made

structure History where
  handed : List Work
  made : List Made
  emitted : List (Nat × UnitReport)

namespace History

def empty : History :=
  ⟨[], [], []⟩

def after (h : History) (s : State σ) : Party → History
  | .worker index =>
    match s.workers[index]?, s.queue with
    | some .idle, work :: _ => { h with handed := h.handed ++ [work] }
    | some (.holding work), _ =>
      match s.collect? work with
      | some taken => { h with made := h.made ++ [⟨work, taken, (s.reportOf work taken).1⟩] }
      | none => h
    | _, _ => h
  | .merger =>
    match s.pending.lookup s.nextOut with
    | some report => { h with emitted := h.emitted ++ [(s.nextOut, report)] }
    | none => h
  | .dispatcher | .stopper => h

def issuesOf (h : History) (number : Nat) : List Issue :=
  (((h.made.map Made.numbered).lookup number).map (·.issues)).getD []

end History

/-- What each party can do, with one constructor for each kind of step. -/
inductive Step (h : History) (s : State σ) : Party → History → State σ → Prop
  | exhaust : s.dispatcher = .looking → s.units = [] →
      Step h s .dispatcher h { s with dispatcher := .finished false }
  | refuse : s.dispatcher = .looking → s.units = unit :: units → s.stopped = true →
      Step h s .dispatcher h { s with dispatcher := .finished true }
  | await : s.dispatcher = .looking → s.units = unit :: units → s.stopped = false →
      Step h s .dispatcher h { s with dispatcher := .waiting }
  | acquire : s.dispatcher = .waiting → s.credits = credits + 1 →
      Step h s .dispatcher h { s with credits, dispatcher := .admitted }
  | cancel : s.dispatcher = .admitted → s.units = unit :: units → s.stopped = true →
      Step h s .dispatcher h { s with dispatcher := .finished true }
  | number : s.dispatcher = .admitted → s.units = unit :: units → s.stopped = false →
      Step h s .dispatcher h (s.number unit units)
  | lapse : s.dispatcher = .admitted → s.units = [] →
      Step h s .dispatcher h { s with dispatcher := .finished false }
  | enqueue : s.dispatcher = .sending work → s.queue.length < max s.options.queue 1 →
      Step h s .dispatcher h { s with queue := s.queue ++ [work], dispatcher := .looking }
  | take : s.workers[i]? = some .idle → s.queue = work :: queue →
      Step h s (.worker i) { h with handed := h.handed ++ [work] }
        ({ s with queue }.setWorker i (.holding work))
  | quit : s.workers[i]? = some .idle → s.queue = [] → s.dispatcher.isFinished = true →
      Step h s (.worker i) h (s.setWorker i .finished)
  | make : s.workers[i]? = some (.holding work) → s.collect? work = some taken →
      Step h s (.worker i) { h with made := h.made ++ [⟨work, taken, (s.reportOf work taken).1⟩] }
        ({ s with
          store := (s.reportOf work taken).2
          deposits := s.depositsAfter work }.setWorker i
            (.depositing work (s.reportOf work taken).1))
  | put : s.workers[i]? = some (.depositing work report) →
      Step h s (.worker i) h ((s.deposit work report).setWorker i (.sending work.number report))
  | send : s.workers[i]? = some (.sending number report) →
      Step h s (.worker i) h
        ({ s with results := s.results ++ [(number, report)] }.setWorker i .idle)
  | emit : s.pending.lookup s.nextOut = some report →
      Step h s .merger { h with emitted := h.emitted ++ [(s.nextOut, report)] }
        ({ s with
          pending := s.pending.filter (·.1 != s.nextOut)
          nextOut := s.nextOut + 1 }.emitReport report)
  | receive : s.pending.lookup s.nextOut = none → s.results = result :: results →
      Step h s .merger h { s with results, pending := result :: s.pending }
  | stop : s.stopped = false → Step h s .stopper h { s with stopped := true }

theorem Step.of_dispatcher {s t : State σ} (hs : s.stepDispatcher = some t) :
    Step h s .dispatcher h t := by
  unfold State.stepDispatcher at hs
  split at hs
  case h_1 hd hu => cases hs; exact .exhaust hd hu
  case h_2 unit units hd hu =>
    cases hs
    cases hb : s.stopped with
    | true => simpa [hb] using Step.refuse hd hu hb
    | false => simpa [hb] using Step.await hd hu hb
  case h_3 hd =>
    split at hs
    case isTrue => cases hs
    case isFalse hc => cases hs; exact .acquire hd (by omega)
  case h_4 unit units hd hu =>
    cases hs
    cases hb : s.stopped with
    | true => simpa [hb] using Step.cancel hd hu hb
    | false => simpa [hb] using Step.number hd hu hb
  case h_5 hd hu => cases hs; exact .lapse hd hu
  case h_6 work _ hd =>
    split at hs
    case isTrue hq => cases hs; exact .enqueue hd hq
    case isFalse => cases hs
  case h_7 => cases hs

theorem Step.of_worker {s t : State σ} (hs : s.stepWorker i = some t) :
    Step h s (.worker i) (h.after s (.worker i)) t := by
  unfold State.stepWorker at hs
  split at hs
  case h_1 => cases hs
  case h_2 => cases hs
  case h_3 hw =>
    split at hs
    case h_1 work queue hq =>
      cases hs
      simpa [History.after, hw, hq] using Step.take hw hq
    case h_2 hq =>
      split at hs
      case isTrue hf => cases hs; simpa [History.after, hw, hq] using Step.quit hw hq hf
      case isFalse => cases hs
  case h_4 work hw =>
    obtain ⟨taken, hc, rfl⟩ := Option.map_eq_some_iff.1 hs
    simpa [History.after, hw, hc] using Step.make hw hc
  case h_5 work report hw => cases hs; simpa [History.after, hw] using Step.put hw
  case h_6 number report hw => cases hs; simpa [History.after, hw] using Step.send hw

theorem Step.of_merger {s t : State σ} (hs : s.stepMerger = some t) :
    Step h s .merger (h.after s .merger) t := by
  unfold State.stepMerger at hs
  split at hs
  case h_1 report hp => cases hs; simpa [History.after, hp] using Step.emit hp
  case h_2 hp =>
    split at hs
    case h_1 result results hr => cases hs; simpa [History.after, hp] using Step.receive hp hr
    case h_2 => cases hs

theorem Step.of_step? {s t : State σ} (hs : s.step? p = some t) : Step h s p (h.after s p) t := by
  cases p with
  | dispatcher => exact .of_dispatcher hs
  | worker i => exact .of_worker hs
  | merger => exact .of_merger hs
  | stopper =>
    simp only [State.step?] at hs
    split at hs
    case isTrue => cases hs
    case isFalse hb => cases hs; exact .stop (by simpa using hb)

theorem Step.step? {s t : State σ} (hs : Step h s p h' t) : s.step? p = some t := by
  cases hs <;>
    simp_all [-List.lookup_eq_none_iff, State.step?, State.stepDispatcher, State.stepWorker,
      State.stepMerger, State.process]

theorem Step.after {s t : State σ} (hs : Step h s p h' t) : h.after s p = h' := by
  cases hs <;> simp_all [-List.lookup_eq_none_iff, History.after]

theorem step_iff {s t : State σ} : Step h s p h' t ↔ s.step? p = some t ∧ h.after s p = h' := by
  constructor
  · intro hs
    exact ⟨hs.step?, hs.after⟩
  · rintro ⟨hs, rfl⟩
    exact .of_step? hs

/-- The states that a scan can reach, each with a history that leads to it. -/
inductive Trace (s₀ : State σ) : History → State σ → Prop
  | start : Trace s₀ .empty s₀
  | step : Trace s₀ h s → s.step? p = some t → Trace s₀ (h.after s p) t

namespace Trace

variable {s₀ s t : State σ}

theorem snoc (ht : Trace s₀ h s) (hs : Step h s p h' t) : Trace s₀ h' t := by
  obtain ⟨ht', rfl⟩ := step_iff.1 hs
  exact ht.step ht'

def play (h : History) (s : State σ) : List Party → Option (History × State σ)
  | [] => some (h, s)
  | p :: ps => (s.step? p).bind fun t => play (h.after s p) t ps

theorem of_play (ht : Trace s₀ h s) (ps : List Party) (hp : play h s ps = some (h', t)) :
    Trace s₀ h' t := by
  induction ps generalizing h s with
  | nil =>
    cases hp
    exact ht
  | cons p ps ih =>
    obtain ⟨u, hu, hp⟩ := Option.bind_eq_some_iff.1 hp
    exact ih (ht.step hu) hp

/-- What holds at the start and is kept by every step holds in every state that is reached. -/
theorem invariant {I : History → State σ → Prop} (start : I .empty s₀)
    (step : ∀ {h s p h' t}, Trace s₀ h s → I h s → Step h s p h' t → I h' t)
    (ht : Trace s₀ h s) : I h s := by
  induction ht with
  | start => exact start
  | step ht hs ih => exact step ht ih (.of_step? hs)

end Trace

end EbuildAudit.Scan
