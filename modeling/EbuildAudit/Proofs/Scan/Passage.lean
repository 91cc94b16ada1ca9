import EbuildAudit.Proofs.Scan.Aggregation

namespace EbuildAudit.Scan

structure Still (ws : List Worker) (n : Nat) (s : State σ) : Prop where
  workers : s.workers = ws
  dispatcher : s.dispatcher = .looking
  nextNumber : s.nextNumber = n
  queue : s.queue = []
  results : s.results = []
  stopped : s.stopped = false

structure Quiet (ws : List Worker) (n : Nat) (s : State σ) : Prop extends Still ws n s where
  waits : s.pending.lookup s.nextOut = none

variable {rules : Rules σ} {options : Options} {store : σ} {units : List ScanUnit}
  {h : History} {s : State σ} {work : Work} {taken : List Deposit} {report : UnitReport}
  {unit : ScanUnit} {ws : List Worker} {n k : Nat}

theorem start_quiet (rules : Rules σ) (hlimit : options.limit = none) (store : σ)
    (units : List ScanUnit) : Quiet (List.replicate (max options.workers 1) .idle) 0
      (.start rules options store units) where
  workers := rfl
  dispatcher := rfl
  nextNumber := rfl
  queue := rfl
  results := rfl
  stopped := by simp [State.start, hlimit]
  waits := rfl

namespace Trace

theorem hand (ht : Trace (.start rules options store units) h s) (hs : Quiet ws n s)
    (hu : units[n]? = some unit) (hc : 0 < s.credits) (hk : ws[k]? = some .idle) :
    ∃ h' t, Trace (.start rules options store units) h' t ∧
      Quiet (ws.set k (.holding (workOf units n unit))) (n + 1) t ∧ h'.made = h.made ∧
        t.deposits = s.deposits := by
  obtain ⟨credits, hcredits⟩ := Nat.exists_eq_add_one.2 hc
  have hrest : s.units = unit :: units.drop (n + 1) := by
    rw [ht.units_eq, hs.nextNumber]
    exact (List.drop_eq_getElem?_toList_append ..).trans (by simp [hu])
  have hroom : s.queue.length < max s.options.queue 1 := by
    rw [hs.queue, List.length_nil]
    omega
  have ht₁ := ht.snoc (.await hs.dispatcher hrest hs.stopped)
  have ht₂ := ht₁.snoc (.acquire rfl hcredits)
  have ht₃ := ht₂.snoc (.number rfl hrest hs.stopped)
  have ht₄ := ht₃.snoc (.enqueue rfl hroom)
  have hwork : Work.mk s.nextNumber unit (s.childrenOf unit) = workOf units n unit := by
    rw [ht.childrenOf_eq, hs.nextNumber]
    rfl
  have ht₅ := ht₄.snoc (.take (i := k) (hs.workers.symm ▸ hk)
    (congrArg (· ++ [Work.mk s.nextNumber unit (s.childrenOf unit)]) hs.queue))
  refine ⟨_, _, ht₅, ⟨⟨?_, rfl, ?_, rfl, hs.results, hs.stopped⟩, hs.waits⟩, rfl, rfl⟩
  · rw [← hwork, ← hs.workers]
    rfl
  · rw [← hs.nextNumber]
    rfl

theorem make (ht : Trace (.start rules options store units) h s) (hs : Quiet ws n s)
    (hk : ws[k]? = some (.holding work)) (hc : s.collect? work = some taken) :
    ∃ h' t report, Trace (.start rules options store units) h' t ∧
      Quiet (ws.set k (.depositing work report)) n t ∧ h'.made = h.made ++ [⟨work, taken, report⟩] ∧
        t.deposits = s.depositsAfter work := by
  have ht₁ := ht.snoc (.make (hs.workers.symm ▸ hk) hc)
  refine ⟨_, _, _, ht₁, ⟨⟨?_, hs.dispatcher, hs.nextNumber, hs.queue, hs.results, hs.stopped⟩,
    hs.waits⟩, rfl, rfl⟩
  rw [← hs.workers]
  rfl

theorem put (ht : Trace (.start rules options store units) h s) (hs : Quiet ws n s)
    (hk : ws[k]? = some (.depositing work report)) :
    ∃ t, Trace (.start rules options store units) h t ∧
      Quiet (ws.set k (.sending work.number report)) n t ∧
        t.deposits = s.deposits ++ (State.deposit? rules work report).toList := by
  have ht₁ := ht.snoc (.put (hs.workers.symm ▸ hk))
  refine ⟨_, ht₁, ⟨⟨?_, hs.dispatcher, hs.nextNumber, hs.queue, hs.results, hs.stopped⟩,
    hs.waits⟩, ?_⟩
  · rw [← hs.workers]
    rfl
  · rw [← ht.rules_eq]
    rfl

theorem settle (ht : Trace (.start rules options store units) h s) (hlimit : options.limit = none)
    (hs : Still ws n s) :
    ∃ h' t, Trace (.start rules options store units) h' t ∧ Quiet ws n t ∧ h'.made = h.made := by
  generalize hl : s.pending.length = l
  induction l using Nat.strongRecOn generalizing h s with
  | ind l ih =>
    cases hp : s.pending.lookup s.nextOut with
    | none => exact ⟨h, s, ht, ⟨hs, hp⟩, rfl⟩
    | some report =>
      have ht₁ := ht.snoc (.emit hp)
      have hshorter : (s.pending.filter (·.1 != s.nextOut)).length < l := by
        rw [← hl, List.length_filter_lt_length_iff_exists]
        exact ⟨_, mem_of_lookup hp, by simp⟩
      have hstopped : (s.stopped || (s.options.limit.any
          (· ≤ (s.output.emitReport report).issues.length))) = false := by
        simp [hs.stopped, ht.options_eq, hlimit]
      obtain ⟨h', t, ht', hquiet, hmade⟩ := ih _ hshorter ht₁
        ⟨hs.workers, hs.dispatcher, hs.nextNumber, hs.queue, hs.results, hstopped⟩ rfl
      exact ⟨h', t, ht', hquiet, hmade⟩

theorem deliver (ht : Trace (.start rules options store units) h s) (hlimit : options.limit = none)
    (hs : Quiet ws n s) (hk : ws[k]? = some (.sending number report)) :
    ∃ h' t, Trace (.start rules options store units) h' t ∧ Quiet (ws.set k .idle) n t ∧
      h'.made = h.made := by
  have ht₁ := ht.snoc (.send (hs.workers.symm ▸ hk))
  have ht₂ := ht₁.snoc (.receive hs.waits (congrArg (· ++ [(number, report)]) hs.results))
  refine ht₂.settle hlimit ⟨?_, hs.dispatcher, hs.nextNumber, hs.queue, rfl, hs.stopped⟩
  rw [← hs.workers]
  rfl

end Trace

end EbuildAudit.Scan
