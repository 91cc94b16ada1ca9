import EbuildAudit.Proofs.Scan.Passage
import EbuildAudit.Proofs.Scan.Tally

/-!
How a package is overtaken. While one worker holds a package, another one goes through the units
after it, up to the first that spoils what the package is given; the window alone can keep it from
doing so.
-/

namespace EbuildAudit.Scan

def OnlyHolds (i : Nat) (ws : List Worker) : Prop :=
  ∀ w ∈ ws, w = .idle ∨ ∃ work, w = .holding work ∧ work.number = i ∧ work.unit.scope = .package

def Overtaken (rules : Rules σ) (units : List ScanUnit) (h : History) : Prop :=
  ∃ m ∈ h.made, rules.collects m.work.unit = true ∧
    (since units m.work.unit.id m.work.number).length < m.taken.length

structure Passed (units : List ScanUnit) (i : Nat) (ws : List Worker) (n : Nat) (h : History)
    (s : State σ) : Prop extends Quiet ws n s where
  orderly : Orderly units h.made
  made : ∀ k < n, k ≠ i → ∃ m ∈ h.made, m.work.number = k

variable {rules : Rules σ} {options : Options} {store : σ} {units : List ScanUnit}
  {h : History} {s : State σ} {work : Work} {taken : List Deposit} {report : UnitReport} {m : Made}
  {unit : ScanUnit} {ws : List Worker} {i j n k l : Nat}

theorem set_of_getElem? {α : Type} {l : List α} {a : α} (h : l[k]? = some a) : l.set k a = l := by
  obtain ⟨hk, rfl⟩ := List.getElem?_eq_some_iff.1 h
  exact List.set_getElem_self hk

theorem length_flatMap_le {α β : Type} {l : List α} {f : α → List β}
    (h : ∀ a ∈ l, (f a).length ≤ 1) : (l.flatMap f).length ≤ l.length := by
  induction l with
  | nil => exact Nat.le_refl 0
  | cons a l ih =>
    have ha := h a List.mem_cons_self
    have hl := ih fun b hb => h b (List.mem_cons_of_mem a hb)
    rw [List.flatMap_cons, List.length_append, List.length_cons]
    omega

theorem OnlyHolds.idle_or_package (h : OnlyHolds i ws) {w : Worker} (hw : ws[j]? = some w) :
    w = .idle ∨ ∃ other, w = .holding other ∧ other.unit.scope = .package := by
  rcases h w (List.mem_of_getElem? hw) with hw' | ⟨other, hw', -, hscope⟩
  · exact .inl hw'
  · exact .inr ⟨other, hw', hscope⟩

namespace Trace

theorem le_nextOut (ht : Trace (.start rules options store units) h s) (hs : Quiet ws n s)
    (hws : OnlyHolds i ws) : i ≤ s.nextOut ∨ s.nextOut = n := by
  have hle := ht.nextOut_le
  rw [hs.nextNumber] at hle
  rcases Nat.eq_or_lt_of_le hle with heq | hlt
  · exact .inr heq
  left
  have hmem := ht.nextOut_mem_inFlight (hs.nextNumber.symm ▸ hlt)
  rcases mem_inFlight_of_waits hs.waits hs.results hmem with
    ⟨w, hw, report, hreport⟩ | ⟨w, hw, work, hheld, hnumber⟩ | ⟨work, hmem, -⟩ | ⟨work, hwork, -⟩
  · rw [hs.workers] at hw
    rcases hws w hw with rfl | ⟨other, rfl, -, -⟩
    · cases hreport
    · cases hreport
  · rw [hs.workers] at hw
    rcases hws w hw with rfl | ⟨other, rfl, hi, -⟩
    · cases hheld
    · cases hheld
      exact Nat.le_of_eq (hi.symm.trans hnumber)
  · rw [hs.queue] at hmem
    cases hmem
  · rw [hs.dispatcher] at hwork
    cases hwork

theorem credits_pos (ht : Trace (.start rules options store units) h s) (hs : Quiet ws n s)
    (hws : OnlyHolds i ws) (hn : n < i + max options.window 1) : 0 < s.credits := by
  obtain ⟨lost, hle, hlost, heq⟩ := ht.credits_eq
  rw [hs.dispatcher] at hlost heq
  have hzero : lost ≠ 1 := fun h => Dispatcher.noConfusion (hlost h)
  rw [hs.nextNumber] at heq
  simp only [Dispatcher.credits] at heq
  rcases ht.le_nextOut hs hws with hout | hout <;> omega

theorem length_since_le (ht : Trace (.start rules options store units) h s)
    (hrules : rules.Aggregating) (horderly : Orderly units h.made)
    (hw : s.workers[k]? = some (.holding work)) (hcollects : rules.collects work.unit = true)
    (hothers : ∀ (j : Nat) w, j ≠ k → s.workers[j]? = some w →
      w = .idle ∨ ∃ other, w = .holding other ∧ other.unit.scope = .package) :
    (since units work.unit.id work.number).length ≤ (s.depositsFor work.unit.id).length := by
  have hrobbed := ht.unrobbed_of_orderly hrules horderly
  refine length_since_le_depositsFor fun v hv => ?_
  rcases ht.counted_whereabouts hrules hrobbed hw hcollects hv with
    hput | ⟨j, w, version, hj, hw', hversion, rfl, -⟩
  · exact hput
  exfalso
  rcases hothers j w hj hw' with rfl | ⟨other, rfl, hscope⟩
  · rcases hversion with hversion | ⟨report, hversion⟩ <;> cases hversion
  · rcases hversion with hversion | ⟨report, hversion⟩ <;> cases hversion
    have hn := Nat.le_of_lt (ht.number_lt_units (ht.handed_of_held hw))
    obtain ⟨hu, -⟩ := ht.mem_handed (ht.handed_of_held hw')
    obtain ⟨-, ⟨unit, hu', hbelow⟩, -⟩ := (mem_since hn).1 hv
    rw [hu] at hu'
    cases hu'
    rw [(ScanUnit.liesBelow_iff.1 hbelow).1] at hscope
    cases hscope

theorem exists_collect (ht : Trace (.start rules options store units) h s)
    (hrules : rules.Aggregating) (horderly : Orderly units h.made)
    (hw : s.workers[k]? = some (.holding work))
    (hothers : ∀ (j : Nat) w, j ≠ k → s.workers[j]? = some w →
      w = .idle ∨ ∃ other, w = .holding other ∧ other.unit.scope = .package) :
    ∃ taken, s.collect? work = some taken := by
  cases hcollects : rules.collects work.unit with
  | true =>
    have hle := ht.length_since_le hrules horderly hw hcollects hothers
    rw [← ht.children_of_blocked hrules hw hcollects] at hle
    exact ⟨_, collect_of_le (ht.rules_eq ▸ hcollects) hle⟩
  | false => exact ⟨[], collect_of_not (ht.rules_eq ▸ hcollects)⟩

theorem put_next (ht : Trace (.start rules options store units) h s) (hrules : rules.Aggregating)
    (hs : Passed units i ws n h s) (hws : OnlyHolds i ws) (hidle : ws[0]? = some .idle)
    (hu : units[n]? = some unit) (hn : n < i + max options.window 1) :
    ∃ h' t taken report, Trace (.start rules options store units) h' t ∧
      Quiet (ws.set 0 (.sending n report)) (n + 1) t ∧
        h'.made = h.made ++ [⟨workOf units n unit, taken, report⟩] ∧
          (rules.collects unit = false → t.deposits =
            s.deposits ++ (State.deposit? rules (workOf units n unit) report).toList) := by
  have hlength : 0 < ws.length := (List.getElem?_eq_some_iff.1 hidle).1
  have hget (w : Worker) : (ws.set 0 w)[0]? = some w := List.getElem?_set_self hlength
  obtain ⟨h₁, t₁, ht₁, hs₁, hmade₁, hdeposits₁⟩ :=
    ht.hand hs.toQuiet hu (ht.credits_pos hs.toQuiet hws hn) hidle
  obtain ⟨taken, hc⟩ := ht₁.exists_collect hrules (hmade₁ ▸ hs.orderly)
    (hs₁.workers.symm ▸ hget _) fun j w hj hw => by
      rw [hs₁.workers, List.getElem?_set_ne (Ne.symm hj)] at hw
      exact hws.idle_or_package hw
  obtain ⟨h₂, t₂, report, ht₂, hs₂, hmade₂, hdeposits₂⟩ := ht₁.make hs₁ (hget _) hc
  rw [List.set_set] at hs₂
  obtain ⟨t₃, ht₃, hs₃, hdeposits₃⟩ := ht₂.put hs₂ (hget _)
  rw [List.set_set] at hs₃
  refine ⟨h₂, t₃, taken, report, ht₃, hs₃, hmade₁ ▸ hmade₂, fun hnot => ?_⟩
  have hafter : t₁.depositsAfter (workOf units n unit) = t₁.deposits := by
    rw [State.depositsAfter, ht₁.rules_eq, if_neg (by simp [workOf, hnot])]
  rw [hdeposits₃, hdeposits₂, hafter, hdeposits₁]

theorem pass (ht : Trace (.start rules options store units) h s) (hrules : rules.Aggregating)
    (hlimit : options.limit = none) (hs : Passed units i ws n h s) (hws : OnlyHolds i ws)
    (hidle : ws[0]? = some .idle) (hu : units[n]? = some unit) (hni : n ≠ i)
    (hn : n < i + max options.window 1) (hdisturbs : ¬Disturbs units i n) :
    ∃ h' t, Trace (.start rules options store units) h' t ∧ Passed units i ws (n + 1) h' t := by
  have hlength : 0 < ws.length := (List.getElem?_eq_some_iff.1 hidle).1
  obtain ⟨h₁, t₁, taken, report, ht₁, hs₁, hmade₁, -⟩ := ht.put_next hrules hs hws hidle hu hn
  obtain ⟨h₂, t₂, ht₂, hs₂, hmade₂⟩ :=
    ht₁.deliver hlimit hs₁ (List.getElem?_set_self hlength)
  rw [List.set_set, set_of_getElem? hidle] at hs₂
  rw [hmade₁] at hmade₂
  refine ⟨h₂, t₂, ht₂, ⟨hs₂, ?_, ?_⟩⟩
  · rw [hmade₂]
    refine hs.orderly.concat fun j hj => ?_
    have hji : j ≠ i := by
      rintro rfl
      exact hdisturbs hj
    obtain ⟨m, hm, rfl⟩ := hs.made j hj.1 hji
    exact List.mem_map_of_mem hm
  · intro k hk hki
    rw [hmade₂]
    by_cases hkn : k = n
    · subst hkn
      exact ⟨_, List.mem_append_right _ (List.mem_singleton.2 rfl), rfl⟩
    · obtain ⟨m, hm, hnumber⟩ := hs.made k (by omega) hki
      exact ⟨m, List.mem_append_left _ hm, hnumber⟩

theorem passes (ht : Trace (.start rules options store units) h s) (hrules : rules.Aggregating)
    (hlimit : options.limit = none) (hs : Passed units i ws n h s) (hws : OnlyHolds i ws)
    (hidle : ws[0]? = some .idle) (hl : n + l ≤ units.length) (hi : n + l ≤ i ∨ i < n)
    (hn : n + l ≤ i + max options.window 1) (hdisturbs : ∀ k < n + l, ¬Disturbs units i k) :
    ∃ h' t, Trace (.start rules options store units) h' t ∧ Passed units i ws (n + l) h' t := by
  induction l with
  | zero => exact ⟨h, s, ht, hs⟩
  | succ l ih =>
    obtain ⟨h', t, ht', hs'⟩ := ih (by omega) (by omega) (by omega)
      fun k hk => hdisturbs k (by omega)
    obtain ⟨unit, hu⟩ : ∃ unit, units[n + l]? = some unit :=
      ⟨_, List.getElem?_eq_getElem (by omega)⟩
    exact ht'.pass (n := n + l) hrules hlimit hs' hws hidle hu (by omega) (by omega)
      (hdisturbs _ (by omega))

theorem overtaken_by_version (ht : Trace (.start rules options store units) h s)
    (hrules : rules.Aggregating) (hs : Passed units i ws n h s) (hws : OnlyHolds i ws)
    (hidle : ws[0]? = some .idle) (hk : ws[k]? = some (.holding work))
    (hcollects : rules.collects work.unit = true) (hn : n < i + max options.window 1)
    (hu : units[n]? = some unit) (hbelow : unit.liesBelow work.unit.id = true) :
    ∃ h' t, Trace (.start rules options store units) h' t ∧
      Overtaken rules units h' := by
  obtain ⟨hscope, hparent⟩ := ScanUnit.liesBelow_iff.1 hbelow
  have hk0 : 0 ≠ k := by
    rintro rfl
    rw [hidle] at hk
    cases hk
  have hnot : rules.collects unit = false := by
    rw [Bool.eq_false_iff]
    intro hcollects'
    rw [hrules.collects_package hcollects'] at hscope
    cases hscope
  have hle := ht.length_since_le hrules hs.orderly (hs.workers.symm ▸ hk) hcollects
    fun j w _ hw => hws.idle_or_package (hs.workers ▸ hw)
  -- the version goes through the first worker
  obtain ⟨h₁, t₁, _, report, ht₁, hs₁, -, hput⟩ := ht.put_next hrules hs hws hidle hu hn
  have hk₁ : (ws.set 0 (.sending n report))[k]? = some (.holding work) := by
    rw [List.getElem?_set_ne hk0]
    exact hk
  -- and the package finds it put aside
  have hdeposits : t₁.deposits = s.deposits ++ [⟨work.unit.id, n, report.issues⟩] := by
    have hdeposit := hrules.deposits_of_collects hcollects hscope
    rw [hput hnot]
    simp [State.deposit?, workOf, hdeposit, hparent]
  have hlonger :
      (t₁.depositsFor work.unit.id).length = (s.depositsFor work.unit.id).length + 1 := by
    rw [length_depositsFor, length_depositsFor, hdeposits]
    simp
  have hchildren := ht.children_of_blocked hrules (hs.workers.symm ▸ hk) hcollects
  have hc : t₁.collect? work = some (t₁.depositsFor work.unit.id) :=
    collect_of_le (ht₁.rules_eq ▸ hcollects) (by omega)
  obtain ⟨h₂, t₂, report', ht₂, -, hmade, -⟩ := ht₁.make hs₁ hk₁ hc
  refine ⟨h₂, t₂, ht₂, ⟨work, t₁.depositsFor work.unit.id, report'⟩, ?_, hcollects, ?_⟩
  · rw [hmade]
    exact List.mem_append_right _ (List.mem_singleton.2 rfl)
  · rw [hlonger]
    exact Nat.lt_succ_of_le hle

theorem overtaken_by_package (ht : Trace (.start rules options store units) h s)
    (hrules : rules.Aggregating) (hs : Passed units i ws n h s) (hws : OnlyHolds i ws)
    (hidle : ws[0]? = some .idle) (hk : ws[k]? = some (.holding work))
    (hcollects : rules.collects work.unit = true) (hn : n < i + max options.window 1)
    (hu : units[n]? = some unit) (hid : unit.id = work.unit.id)
    (hsince : since units work.unit.id work.number ≠ []) (hnone : since units unit.id n = []) :
    ∃ h' t, Trace (.start rules options store units) h' t ∧
      Overtaken rules units h' := by
  have hscope := (ScanUnit.scope_congr hid).trans (hrules.collects_package hcollects)
  have hcollects' := hrules.collects_of_scope hcollects hscope
  have hlength : 0 < ws.length := (List.getElem?_eq_some_iff.1 hidle).1
  have hle := ht.length_since_le hrules hs.orderly (hs.workers.symm ▸ hk) hcollects
    fun j w _ hw => hws.idle_or_package (hs.workers ▸ hw)
  obtain ⟨h₁, t₁, ht₁, hs₁, -, hdeposits₁⟩ :=
    ht.hand hs.toQuiet hu (ht.credits_pos hs.toQuiet hws hn) hidle
  have hfor : t₁.depositsFor unit.id = s.depositsFor work.unit.id := by
    simp only [State.depositsFor, hdeposits₁, hid]
  have hc₁ : t₁.collect? (workOf units n unit) = some (t₁.depositsFor unit.id) :=
    collect_of_le (ht₁.rules_eq ▸ hcollects') (by simp [workOf, hnone])
  obtain ⟨h₂, t₂, report, ht₂, -, hmade₂, -⟩ :=
    ht₁.make hs₁ (List.getElem?_set_self hlength) hc₁
  refine ⟨h₂, t₂, ht₂, ⟨workOf units n unit, t₁.depositsFor unit.id, report⟩, ?_, hcollects', ?_⟩
  · rw [hmade₂]
    exact List.mem_append_right _ (List.mem_singleton.2 rfl)
  · simp only [workOf, hnone, hfor]
    exact Nat.lt_of_lt_of_le (List.length_pos_of_ne_nil hsince) hle

end Trace

def secondHolds (workers : Nat) (work : Work) : List Worker :=
  (List.replicate (max workers 1) .idle).set 1 (.holding work)

theorem getElem?_idle {workers : Nat} (h : 1 < workers) (hk : k < 2) :
    (List.replicate (max workers 1) Worker.idle)[k]? = some .idle := by
  rw [List.getElem?_replicate, if_pos (by omega)]

theorem onlyHolds_idle (i workers : Nat) : OnlyHolds i (List.replicate workers .idle) :=
  fun _ hw => .inl (List.eq_of_mem_replicate hw)

theorem onlyHolds_secondHolds (workers : Nat) (hscope : unit.scope = .package) :
    OnlyHolds i (secondHolds workers (workOf units i unit)) := by
  intro w hw
  rcases List.mem_or_eq_of_mem_set hw with hw | rfl
  · exact onlyHolds_idle i _ w hw
  · exact .inr ⟨_, rfl, rfl, hscope⟩

theorem secondHolds_zero {workers : Nat} (h : 1 < workers) (work : Work) :
    (secondHolds workers work)[0]? = some .idle := by
  rw [secondHolds, List.getElem?_set_ne Nat.one_ne_zero]
  exact getElem?_idle h Nat.zero_lt_two

theorem secondHolds_one {workers : Nat} (h : 1 < workers) (work : Work) :
    (secondHolds workers work)[1]? = some (.holding work) := by
  apply List.getElem?_set_self
  rw [List.length_replicate]
  omega

theorem exists_passed (store : σ) (hrules : rules.Aggregating) (hlimit : options.limit = none)
    (hworkers : 1 < options.workers) (hu : units[i]? = some unit) (hscope : unit.scope = .package)
    (hij : i < j) (hunits : j ≤ units.length) (hj : j ≤ i + max options.window 1)
    (hdisturbs : ∀ k < j, ¬Disturbs units i k) :
    ∃ h s, Trace (.start rules options store units) h s ∧
      Passed units i (secondHolds options.workers (workOf units i unit)) j h s := by
  have honly := onlyHolds_idle i (max options.workers 1)
  have hstart : Passed units i (List.replicate (max options.workers 1) .idle) 0 .empty
      (.start rules options store units) :=
    ⟨start_quiet rules hlimit store units, fun l₁ m l₂ h => by simp [History.empty] at h,
      fun k hk => absurd hk (Nat.not_lt_zero k)⟩
  -- first those before the package
  obtain ⟨h₁, t₁, ht₁, hs₁⟩ := Trace.start.passes (l := i) hrules hlimit hstart honly
    (getElem?_idle hworkers Nat.zero_lt_two) (by omega) (by omega) (by omega)
    fun k hk => hdisturbs k (by omega)
  rw [Nat.zero_add] at hs₁
  obtain ⟨h₂, t₂, ht₂, hs₂, hmade₂, -⟩ := ht₁.hand hs₁.toQuiet hu
    (ht₁.credits_pos hs₁.toQuiet honly (by omega)) (getElem?_idle hworkers Nat.one_lt_two)
  have hmade (k : Nat) (hk : k < i + 1) (hki : k ≠ i) : ∃ m ∈ h₂.made, m.work.number = k := by
    rw [hmade₂]
    exact hs₁.made k (by omega) hki
  -- then those after it
  obtain ⟨h₃, t₃, ht₃, hs₃⟩ := ht₂.passes (l := j - (i + 1)) hrules hlimit
    ⟨hs₂, hmade₂ ▸ hs₁.orderly, hmade⟩ (onlyHolds_secondHolds _ hscope)
    (secondHolds_zero hworkers _) (by omega) (by omega) (by omega)
    fun k hk => hdisturbs k (by omega)
  rw [show i + 1 + (j - (i + 1)) = j by omega] at hs₃
  exact ⟨h₃, t₃, ht₃, hs₃⟩

theorem since_eq_nil (hu : units[i]? = some unit) (hscope : unit.scope = .package) (hij : i < j)
    (hunits : j ≤ units.length) (hdisturbs : ∀ k < j, ¬Disturbs units i k) :
    since units unit.id j = [] := by
  refine List.eq_nil_iff_forall_not_mem.2 fun v hv => ?_
  obtain ⟨hvj, ⟨version, hversion, hbelow⟩, hbetween⟩ := (mem_since hunits).1 hv
  rcases Nat.lt_trichotomy v i with hvi | rfl | hvi
  · exact hbetween i unit hvi hij hu rfl
  · rw [hu] at hversion
    cases hversion
    exact ScanUnit.liesBelow_ne hbelow rfl
  · exact hdisturbs v hvj ⟨hvi, unit, version, hu, hversion, hscope, .inl hbelow⟩

/-- Where a package can be overtaken, it can be given more than was counted for it. -/
theorem exists_overtaken (store : σ) (hrules : rules.Aggregating) (hlimit : options.limit = none)
    (hcollects : ∀ unit : ScanUnit, unit.scope = .package → rules.collects unit = true)
    (hworkers : 1 < options.workers) (hj : j < i + max options.window 1)
    (hdisturbs : Disturbs units i j) :
    ∃ h s, Trace (.start rules options store units) h s ∧ Overtaken rules units h := by
  -- only the first unit that disturbs matters
  induction j using Nat.strongRecOn with
  | ind j ih =>
    by_cases hfirst : ∃ k < j, Disturbs units i k
    · obtain ⟨k, hk, hdisturbs'⟩ := hfirst
      exact ih k hk (Nat.lt_trans hk hj) hdisturbs'
    have hfirst (k : Nat) (hk : k < j) : ¬Disturbs units i k := fun h => hfirst ⟨k, hk, h⟩
    obtain ⟨hij, a, b, ha, hb, hscope, hkind⟩ := hdisturbs
    have hunits := Nat.le_of_lt (List.getElem?_eq_some_iff.1 hb).1
    obtain ⟨h, s, ht, hs⟩ := exists_passed store hrules hlimit hworkers ha hscope hij hunits
      (Nat.le_of_lt hj) hfirst
    have hidle := secondHolds_zero hworkers (workOf units i a)
    have hholds := secondHolds_one hworkers (workOf units i a)
    have honly : OnlyHolds i (secondHolds options.workers (workOf units i a)) :=
      onlyHolds_secondHolds _ hscope
    rcases hkind with hbelow | ⟨hid, hsince⟩
    · exact ht.overtaken_by_version hrules hs honly hidle hholds (hcollects a hscope) hj hb hbelow
    · exact ht.overtaken_by_package hrules hs honly hidle hholds (hcollects a hscope) hj hb hid
        hsince (hid ▸ since_eq_nil ha hscope hij hunits hfirst)

namespace Trace

variable {grammar : Grammar} {bare : State Store}

theorem tally_store
    (ht : Trace (.start (Scan.rules tallyPlan grammar) options bareStore units) h bare) :
    bare.store = bareStore := by
  refine ht.invariant (I := fun _ s => s.store = bareStore) rfl fun {h s p h' t} ht hI hs => ?_
  cases hs
  case make i work taken hw hc =>
    simp only [State.setWorker, State.reportOf, ht.rules_eq, hI]
    by_cases hscope : work.unit.scope = .version
    · rw [tally_report_version hscope]
    · rw [tally_report_other hscope]
  all_goals exact hI

theorem tally_issues
    (ht : Trace (.start (Scan.rules tallyPlan grammar) options bareStore units) h bare) :
    ∀ m ∈ h.made, m.work.unit.scope = .version → m.report.issues.length = 1 := by
  refine ht.invariant (I := fun h _ => ∀ m ∈ h.made, m.work.unit.scope = .version →
    m.report.issues.length = 1) (by simp [History.empty]) fun {h s p h' t} ht hI hs => ?_
  cases hs
  case make i work taken hw hc =>
    intro m hm hscope
    rcases List.mem_append.1 hm with hm | hm
    · exact hI m hm hscope
    · rw [List.mem_singleton] at hm
      subst hm
      simp only [State.reportOf, ht.rules_eq, ht.tally_store]
      rw [tally_report_version hscope]
      rfl
  all_goals exact hI

theorem tally_length_children
    (ht : Trace (.start (Scan.rules tallyPlan grammar) options bareStore units) h bare)
    (hm : m ∈ h.made) : m.children.length = m.taken.length := by
  have hone (d : Deposit) (hd : d ∈ m.taken) : d.issues.length = 1 := by
    obtain ⟨m', hm', hdep⟩ := ht.deposit_source (.inr ⟨m, hm, hd⟩)
    obtain ⟨hdeposits, -, -, hissues⟩ := deposit_eq_some hdep
    rw [hissues]
    exact ht.tally_issues m' hm' ((rules_aggregating tallyPlan grammar).deposits_version hdeposits)
  rw [Made.children, List.length_flatMap, List.map_congr_left hone]
  simp

theorem tally_length_since_le
    (ht : Trace (.start (Scan.rules tallyPlan grammar) options bareStore units) h bare)
    (id : UnitId) (hn : n ≤ units.length) :
    ((since units id n).flatMap h.issuesOf).length ≤ (since units id n).length := by
  have hone (v : Nat) (hv : v ∈ since units id n) : (h.issuesOf v).length ≤ 1 := by
    obtain ⟨-, ⟨unit, hu, hbelow⟩, -⟩ := (mem_since hn).1 hv
    rw [History.issuesOf]
    cases hl : (h.made.map Made.numbered).lookup v with
    | none => exact Nat.zero_le 1
    | some report =>
      obtain ⟨m, hm, hnumbered⟩ := List.mem_map.1 (mem_of_lookup hl)
      cases hnumbered
      have hu' := ht.unit_of_made hm
      rw [hu] at hu'
      cases hu'
      exact Nat.le_of_eq (ht.tally_issues m hm (ScanUnit.liesBelow_iff.1 hbelow).1)
  exact length_flatMap_le hone

end Trace

/-- What the count of a package promises: the package is given, in their order, the issues of the
versions that were counted for it, and the scan goes on. -/
def Exact (units : List ScanUnit) (rules : Rules σ) (h : History) (s : State σ) : Prop :=
  (∀ m ∈ h.made, rules.collects m.work.unit = true →
    m.work.children = (since units m.work.unit.id m.work.number).length ∧
      m.children = (since units m.work.unit.id m.work.number).flatMap h.issuesOf) ∧
    (s.isFinished = false → ∃ p, p ≠ .stopper ∧ (s.step? p).isSome = true)

theorem exact_iff_calm (workers queue window : Nat) (units : List ScanUnit) :
    (∀ plan grammar limit store h s,
      Trace (.start (Scan.rules plan grammar) ⟨workers, queue, window, limit⟩ store units) h s →
        Exact units (Scan.rules plan grammar) h s) ↔ Calm workers window units := by
  constructor
  · intro hexact
    refine Classical.byContradiction fun hcalm => ?_
    simp only [Calm, not_or, Classical.not_forall, Classical.not_not] at hcalm
    obtain ⟨hworkers, i, j, hj, hdisturbs⟩ := hcalm
    have hcollects (unit : ScanUnit) (hscope : unit.scope = .package) :
        (Scan.rules tallyPlan unread).collects unit = true := by
      rw [tally_collects, hscope]
      rfl
    let options : Options := ⟨workers, queue, window, none⟩
    have hlimit : options.limit = none := rfl
    obtain ⟨h, s, ht, m, hm, hcollects, hlonger⟩ := exists_overtaken bareStore
      (rules_aggregating tallyPlan unread) hlimit hcollects (Nat.lt_of_not_le hworkers) hj hdisturbs
    obtain ⟨hall, -⟩ := hexact _ _ _ _ _ _ ht
    obtain ⟨-, hchildren⟩ := hall m hm hcollects
    have hle := ht.tally_length_since_le m.work.unit.id (n := m.work.number)
      (Nat.le_of_lt (ht.number_lt_units (ht.handed_of_made hm)))
    rw [← hchildren, ht.tally_length_children hm] at hle
    exact Nat.not_le_of_lt hlonger hle
  · intro hcalm plan grammar limit store h s ht
    have hrules := rules_aggregating plan grammar
    refine ⟨fun m hm hcollects => ⟨?_, (ht.exact_of_calm hrules hcalm hm hcollects).2⟩, ?_⟩
    · obtain ⟨-, hwork⟩ := ht.mem_handed (ht.handed_of_made hm)
      rw [hwork, workOf, if_pos (hrules.collects_package hcollects)]
    · exact ht.exists_step hrules (ht.unrobbed_of_orderly hrules (ht.orderly_of_calm hcalm))

def lateVersion : List ScanUnit :=
  [⟨.version "a" "p" "1", "a/p/p-1.ebuild", 0⟩, ⟨.package "a" "p", "a/p", 1⟩,
    ⟨.version "a" "p" "2", "a/p/p-2.ebuild", 0⟩]

def late (n : Nat) (counts : List (UnitId × Nat)) (workers : List Worker)
    (deposits : List Deposit) : State Store :=
  { State.start (Scan.rules tallyPlan unread) ⟨3, 3, 3, none⟩ bareStore lateVersion with
    units := lateVersion.drop n
    nextNumber := n
    counts
    credits := 3 - n
    workers
    deposits }

def overtaken : State Store :=
  late 3 [(.package "a" "p", 1)]
    [.holding ⟨0, lateVersion[0], 0⟩, .holding ⟨1, lateVersion[1], 1⟩,
      .sending 2 ⟨[], [seen lateVersion[2]]⟩]
    [⟨.package "a" "p", 2, [seen lateVersion[2]]⟩]

theorem overtaken_trace :
    Trace (.start (Scan.rules tallyPlan unread) ⟨3, 3, 3, none⟩ bareStore lateVersion)
      ⟨[⟨0, lateVersion[0], 0⟩, ⟨1, lateVersion[1], 1⟩, ⟨2, lateVersion[2], 0⟩],
        [⟨⟨2, lateVersion[2], 0⟩, [], ⟨[], [seen lateVersion[2]]⟩⟩], []⟩ overtaken := by
  let start : State Store :=
    .start (Scan.rules tallyPlan unread) ⟨3, 3, 3, none⟩ bareStore lateVersion
  let give (k : Nat) : List Party :=
    [.dispatcher, .dispatcher, .dispatcher, .dispatcher, .worker k]
  have ht₁ : Trace start ⟨[⟨0, lateVersion[0], 0⟩], [], []⟩
      (late 1 [(.package "a" "p", 1)] [.holding ⟨0, lateVersion[0], 0⟩, .idle, .idle] []) :=
    Trace.start.of_play (give 0) rfl
  have ht₂ : Trace start ⟨[⟨0, lateVersion[0], 0⟩, ⟨1, lateVersion[1], 1⟩], [], []⟩
      (late 2 [] [.holding ⟨0, lateVersion[0], 0⟩, .holding ⟨1, lateVersion[1], 1⟩, .idle] []) :=
    ht₁.of_play (give 1) rfl
  have ht₃ : Trace start
      ⟨[⟨0, lateVersion[0], 0⟩, ⟨1, lateVersion[1], 1⟩, ⟨2, lateVersion[2], 0⟩], [], []⟩
      (late 3 [(.package "a" "p", 1)] [.holding ⟨0, lateVersion[0], 0⟩,
        .holding ⟨1, lateVersion[1], 1⟩, .holding ⟨2, lateVersion[2], 0⟩] []) :=
    ht₂.of_play (give 2) rfl
  exact ht₃.of_play [.worker 2, .worker 2] rfl

/-- The package was counted one version, and is given the issues of another one. -/
theorem not_exact_lateVersion :
    ∃ h s, Trace (.start (Scan.rules tallyPlan unread) ⟨3, 3, 3, none⟩ bareStore lateVersion) h s ∧
      ¬Exact lateVersion (Scan.rules tallyPlan unread) h s ∧
        ∃ m ∈ h.made, m.work = ⟨1, lateVersion[1], 1⟩ ∧ m.children = [seen lateVersion[2]] ∧
          (since lateVersion m.work.unit.id 1).flatMap h.issuesOf = [seen lateVersion[0]] := by
  have hcollect : overtaken.collect? ⟨1, lateVersion[1], 1⟩ = some overtaken.deposits := by
    have hfor : overtaken.depositsFor lateVersion[1].id = overtaken.deposits :=
      List.mergeSort_singleton _
    rw [← hfor]
    exact collect_of_le rfl (by rw [hfor]; exact Nat.le_refl 1)
  have ht₁ := overtaken_trace.snoc (.make (i := 1) rfl hcollect)
  have ht₂ := ht₁.snoc (.make (i := 0) rfl (collect_of_not rfl))
  refine ⟨_, _, ht₂, fun hexact => ?_, ⟨⟨1, lateVersion[1], 1⟩, overtaken.deposits, _⟩,
    List.mem_cons_of_mem _ List.mem_cons_self, rfl, rfl, rfl⟩
  obtain ⟨hall, -⟩ := hexact
  obtain ⟨-, hchildren⟩ := hall _ (List.mem_cons_of_mem _ List.mem_cons_self) rfl
  have hunit := congrArg (List.map Issue.unit) hchildren
  exact absurd hunit (by decide)

end EbuildAudit.Scan
