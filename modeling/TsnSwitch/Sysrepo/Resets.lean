/-
What a transaction of gate-enabled and config-change leaves behind.

In sched.c a failing call is reported and the list of resets is cleared, unless
the key of the interface cannot be read: then the callback returns with the
pairs recorded so far. The callback of stream_filter_gates.c returns in the same
way when the bridge cannot be opened, and reports no other failure at all. In
every other transaction the driver, the queue and the returned value agree, and
the list is empty afterwards (`transactions_iff`).
-/
import TsnSwitch.Sysrepo.Transaction

namespace TsnSwitch.Sysrepo

open Lib

variable {m : Implementation} {pair : String → Bool × Bool} {pair' : Bool × Bool} {c : Change} {list : ResetList}

/-! ## What a transaction should do -/

/-- The leaf of the pair, and whether gate-enabled is written. -/
def Called.write (e : Called) : Option (String × Bool) :=
  match e.call with
  | .setGateEnabled _ => some (e.leaf, true)
  | .setConfigChange _ => some (e.leaf, false)
  | _ => none

def writes (calls : List Called) : List (String × Bool) := calls.filterMap Called.write

/-- The leaves that are reset when the lists are processed. -/
def resets (lists : List ResetList) : List String := (lists.flatten.filter Reset.value).map Reset.xpath

/-- The callback returns an error exactly when a call has failed, and otherwise
has written each pair; it writes none twice; and the leaves of the pairs with
both values true are queued when it accepts the changes and the transaction is
committed, and no others. -/
structure Correct (tx : Transaction) (s : Plugin) (r : (SrError × List Called) × Plugin) : Prop where
  reported : r.1.1 ≠ .ok ↔ ∃ e ∈ r.1.2, e.ok = false
  written : r.1.1 = .ok → ∀ c ∈ tx.changes,
    ⟨c.leaf, .setGateEnabled (tx.pair c.leaf).1, true⟩ ∈ r.1.2 ∧
      ⟨c.leaf, .setConfigChange (tx.pair c.leaf).2, true⟩ ∈ r.1.2
  once : (writes r.1.2).Nodup
  queued : ∃ lists, r.2.helper.pushed = s.helper.pushed ++ lists ∧ (resets lists).Nodup ∧
    ∀ leaf, leaf ∈ resets lists ↔
      r.1.1 = .ok ∧ tx.committed = true ∧ (∃ c ∈ tx.changes, c.leaf = leaf) ∧ tx.pair leaf = (true, true)

/-- No allocation of the transaction fails. -/
def Transaction.Allocated (tx : Transaction) : Prop := (∀ c ∈ tx.changes, c.allocOk = true) ∧ tx.allocOk = true

/-! ## Where a transaction fails -/

def failed (ok : Bool) (call : Call) : Option Call := if ok then none else some call

/-- The first call that fails when a pair is written. -/
def applyFault (pair : Bool × Bool) (c : Change) : Option Call :=
  let checked := if pair.1 && pair.2 then failed c.validOk .validate else none
  let gateEnabled := failed c.setGateEnabledOk (.setGateEnabled pair.1)
  let configChange := failed c.setConfigChangeOk (.setConfigChange pair.2)
  if !pair.1 then (checked <|> gateEnabled) <|> configChange else (checked <|> configChange) <|> gateEnabled

/-- The first call that fails from the read of config-change on. `seen` says
whether the pair is already recorded. -/
def handleFault (pair : Bool × Bool) (seen : Bool) (c : Change) : Option Call :=
  failed c.configChangeOk .readConfigChange <|>
    if seen then none else failed c.gateEnabledOk .readGateEnabled <|> applyFault pair c

/-- The first call that fails when a change is handled. -/
def fault (m : Implementation) (pair : Bool × Bool) (seen : Bool) (c : Change) : Option Call :=
  failed c.keyOk .key <|> (if m = .psfp then failed c.gateKeyOk .gateKey else none) <|>
    if c.op = .modified ∨ c.op = .created then
      failed c.openOk .open <|> (if m = .sched then failed c.featOk .feature else none) <|> handleFault pair seen c
    else some .remove

/-- The first call that fails, and the pairs that are recorded by then. -/
def firstFault (m : Implementation) (pair : String → Bool × Bool) : List String → List Change → Option (List String × Call)
  | _, [] => none
  | seen, c :: cs =>
    match fault m (pair c.leaf) (decide (c.leaf ∈ seen)) c with
    | some call => some (seen, call)
    | none => firstFault m pair (if c.leaf ∈ seen then seen else seen ++ [c.leaf]) cs

/-- The calls whose failure makes the callback return at once. -/
def Implementation.returns : Implementation → Call → Bool
  | .sched, .key => true
  | .psfp, .key => true
  | .psfp, .gateKey => true
  | .psfp, .open => true
  | _, _ => false

/-- The calls whose failure the callback reports. -/
def Implementation.reports (m : Implementation) (call : Call) : Bool :=
  match m with
  | .sched => true
  | .psfp => m.returns call

/-- The first failing call, if there is one, is reported, and does not make the
callback return with pairs recorded. -/
def Clean (m : Implementation) (tx : Transaction) : Prop :=
  tx.Allocated ∧ (tx.iterOk = true → ∀ seen call, firstFault m tx.pair [] tx.changes = some (seen, call) →
    m.reports call = true ∧ (m.returns call = true → seen = []))

/-! ## Writing a pair -/

/-- The calls that were made are all good but the last, which is the one that
fails. -/
def Ends (leaf : String) (f : Option Call) (calls : List Called) : Prop :=
  ∃ pre, (∀ e ∈ pre, e.ok = true) ∧ calls = pre ++ (f.map fun call => ⟨leaf, call, false⟩).toList

theorem Ends.cons {leaf : String} {f : Option Call} {calls : List Called} (h : Ends leaf f calls) {e : Called}
    (he : e.ok = true) : Ends leaf f (e :: calls) := by
  obtain ⟨pre, hpre, rfl⟩ := h
  exact ⟨e :: pre, List.forall_mem_cons.2 ⟨he, hpre⟩, rfl⟩

theorem ends_one {ok : Bool} {call : Call} (c : Change) : Ends c.leaf (failed ok call) [c.calls call ok] := by
  cases ok with
  | true => exact ⟨[c.calls call true], fun e he => by rw [List.mem_singleton.1 he]; rfl, rfl⟩
  | false => exact ⟨[], (fun e he => nomatch he), rfl⟩

/-- A call fails exactly if the sequence ends with one that does. -/
theorem Ends.failed_iff {leaf : String} {f : Option Call} {calls : List Called} (h : Ends leaf f calls) :
    (∃ e ∈ calls, e.ok = false) ↔ f ≠ none := by
  obtain ⟨pre, hpre, rfl⟩ := h
  cases f with
  | none =>
    refine iff_of_false (fun ⟨e, he, hf⟩ => ?_) fun h => h rfl
    have ht := hpre e (by simpa using he)
    exact absurd (hf.symm.trans ht) Bool.false_ne_true
  | some call => exact iff_of_true ⟨_, List.mem_append_right _ (List.mem_singleton_self _), rfl⟩ (Option.some_ne_none _)

/-- What a function that returns an error has called. -/
def Reports (leaf : String) (f : Option Call) (r : SrError × List Called) : Prop :=
  (r.1 = .ok ↔ f = none) ∧ Ends leaf f r.2

theorem reports_one {ok : Bool} {call : Call} {err : SrError} (c : Change) (herr : err ≠ .ok) :
    Reports c.leaf (failed ok call) (if ok then .ok else err, [c.calls call ok]) := by
  refine ⟨?_, ends_one c⟩
  cases ok with
  | true => exact iff_of_true rfl rfl
  | false => exact iff_of_false herr (Option.some_ne_none _)

theorem reports_nothing (leaf : String) : Reports leaf none (.ok, []) :=
  ⟨iff_of_true rfl rfl, [], (fun _ he => nomatch he), rfl⟩

theorem andThen_reports {leaf : String} {f g : Option Call} {r next : SrError × List Called} (hr : Reports leaf f r)
    (hn : Reports leaf g next) : Reports leaf (f <|> g) (andThen r next) := by
  unfold andThen
  cases f with
  | none =>
    rw [if_pos (hr.1.2 rfl)]
    obtain ⟨pre, hpre, he⟩ := hr.2
    obtain ⟨pre', hpre', he'⟩ := hn.2
    refine ⟨hn.1, pre ++ pre', List.forall_mem_append.2 ⟨hpre, hpre'⟩, ?_⟩
    simp [he, he']
  | some call =>
    rw [if_neg fun h => nomatch hr.1.1 h]
    exact hr

theorem apply_reports (c : Change) (pair : Bool × Bool) :
    Reports c.leaf (applyFault pair c) (applyConfigChange c pair.1 pair.2) := by
  have hgate : Reports c.leaf (failed c.setGateEnabledOk (.setGateEnabled pair.1)) (setGateEnabled c pair.1) :=
    reports_one c fun h => nomatch h
  have hconf : Reports c.leaf (failed c.setConfigChangeOk (.setConfigChange pair.2)) (setConfigChange c pair.2) :=
    reports_one c fun h => nomatch h
  have hcheck : Reports c.leaf (if pair.1 && pair.2 then failed c.validOk .validate else none)
      (if pair.1 && pair.2 then (if c.validOk then .ok else .callbackFailed, [c.calls .validate c.validOk])
        else (.ok, [])) := by
    split
    · exact reports_one c fun h => nomatch h
    · exact reports_nothing _
  unfold applyFault applyConfigChange
  dsimp only
  split
  · exact andThen_reports (andThen_reports hcheck hgate) hconf
  · exact andThen_reports (andThen_reports hcheck hconf) hgate

/-- The calls of a sequence that ends well. -/
theorem andThen_ok {r next : SrError × List Called} (h : (andThen r next).1 = .ok) :
    r.1 = .ok ∧ (andThen r next).2 = r.2 ++ next.2 := by
  unfold andThen at h ⊢
  split at h
  · rename_i hr
    rw [if_pos hr]
    exact ⟨hr, rfl⟩
  · rename_i hr
    exact absurd h hr

theorem andThen_sublist (r next : SrError × List Called) : (andThen r next).2.Sublist (r.2 ++ next.2) := by
  unfold andThen
  split
  · exact List.Sublist.refl _
  · exact List.sublist_append_left _ _

/-- Each of the two leaves is written at most once. -/
def OnceAt (leaf : String) (calls : List Called) : Prop := (writes calls).Nodup ∧ ∀ w ∈ writes calls, w.1 = leaf

theorem OnceAt.sublist {leaf : String} {calls calls' : List Called} (h : OnceAt leaf calls') (hs : calls.Sublist calls') :
    OnceAt leaf calls :=
  have hw : (writes calls).Sublist (writes calls') := hs.filterMap _
  ⟨h.1.sublist hw, fun w hm => h.2 w (hw.subset hm)⟩

theorem apply_once (c : Change) (pair : Bool × Bool) : OnceAt c.leaf (applyConfigChange c pair.1 pair.2).2 := by
  unfold applyConfigChange
  dsimp only
  split
  · refine OnceAt.sublist ?_ ((andThen_sublist _ _).trans ((andThen_sublist _ _).append_right _))
    split <;> simp [OnceAt, writes, List.filterMap_cons, Called.write, setGateEnabled, setConfigChange, Change.calls]
  · refine OnceAt.sublist ?_ ((andThen_sublist _ _).trans ((andThen_sublist _ _).append_right _))
    split <;> simp [OnceAt, writes, List.filterMap_cons, Called.write, setGateEnabled, setConfigChange, Change.calls]

/-- What a pair that is written leaves in the calls. -/
def Written (leaf : String) (pair : Bool × Bool) (calls : List Called) : Prop :=
  ⟨leaf, .setGateEnabled pair.1, true⟩ ∈ calls ∧ ⟨leaf, .setConfigChange pair.2, true⟩ ∈ calls

theorem Written.subset {leaf : String} {pair : Bool × Bool} {calls calls' : List Called} (h : Written leaf pair calls)
    (hs : calls ⊆ calls') : Written leaf pair calls' := ⟨hs h.1, hs h.2⟩

theorem apply_called (h : (applyConfigChange c pair'.1 pair'.2).1 = .ok) :
    c.calls (.setGateEnabled pair'.1) c.setGateEnabledOk ∈ (applyConfigChange c pair'.1 pair'.2).2 ∧
      c.calls (.setConfigChange pair'.2) c.setConfigChangeOk ∈ (applyConfigChange c pair'.1 pair'.2).2 := by
  unfold applyConfigChange at h ⊢
  dsimp only at h ⊢
  split at h
  · rename_i hg
    obtain ⟨h', hcalls⟩ := andThen_ok h
    rw [if_pos hg, hcalls, (andThen_ok h').2]
    exact ⟨List.mem_append_left _ (List.mem_append_right _ (List.mem_singleton_self _)),
      List.mem_append_right _ (List.mem_singleton_self _)⟩
  · rename_i hg
    obtain ⟨h', hcalls⟩ := andThen_ok h
    rw [if_neg hg, hcalls, (andThen_ok h').2]
    exact ⟨List.mem_append_right _ (List.mem_singleton_self _),
      List.mem_append_left _ (List.mem_append_right _ (List.mem_singleton_self _))⟩

theorem apply_written (h : applyFault pair' c = none) : Written c.leaf pair' (applyConfigChange c pair'.1 pair'.2).2 := by
  obtain ⟨hok, pre, hpre, he⟩ := apply_reports c pair'
  rw [h, Option.map_none, Option.toList_none, List.append_nil] at he
  rw [← he] at hpre
  have hret := hok.2 h
  have hmem : ∀ {call ok}, c.calls call ok ∈ (applyConfigChange c pair'.1 pair'.2).2 →
      ⟨c.leaf, call, true⟩ ∈ (applyConfigChange c pair'.1 pair'.2).2 := by
    intro call ok hm
    obtain rfl : ok = true := hpre _ hm
    exact hm
  exact ⟨hmem (apply_called hret).1, hmem (apply_called hret).2⟩

/-! ## Handling a change -/

def names (list : ResetList) : List String := list.map Reset.xpath

theorem exists_iff (list : ResetList) (xpath : String) : configChangeListExists list xpath = decide (xpath ∈ names list) := by
  rw [configChangeListExists, Bool.eq_iff_iff, List.any_eq_true, decide_eq_true_iff, names, List.mem_map]
  simp only [beq_iff_eq]

/-- The list when the change has been handled. -/
def recorded (pair : Bool × Bool) (c : Change) (list : ResetList) : ResetList :=
  if c.leaf ∈ names list then list else list ++ [⟨c.leaf, pair.1 && pair.2⟩]

/-- What handling a change leaves, when `f` is the first call that fails. -/
structure Handles (c : Change) (pair : Bool × Bool) (list : ResetList) (f : Option Call) (list' : ResetList)
    (calls : List Called) : Prop where
  ends : Ends c.leaf f calls
  kept : list' = if f = none then recorded pair c list else list
  once : OnceAt c.leaf calls
  quiet : c.leaf ∈ names list → writes calls = []
  written : f = none → c.leaf ∉ names list → Written c.leaf pair calls

theorem Handles.cons {f : Option Call} {list' : ResetList} {calls : List Called} (h : Handles c pair' list f list' calls)
    {e : Called} (he : e.ok = true) (hw : e.write = none) : Handles c pair' list f list' (e :: calls) := by
  have hwrites : writes (e :: calls) = writes calls := List.filterMap_cons_none hw
  exact
    { ends := h.ends.cons he
      kept := h.kept
      once := by
        rw [OnceAt, hwrites]
        exact h.once
      quiet := fun hm => hwrites.trans (h.quiet hm)
      written := fun hf hm => (h.written hf hm).subset (List.subset_cons_self _ _) }

/-- A call fails before anything is written. -/
theorem handles_failed {call : Call} (hw : (c.calls call false).write = none) (list : ResetList) :
    Handles c pair' list (some call) list [c.calls call false] := by
  have hwrites : writes [c.calls call false] = [] := List.filterMap_cons_none hw
  exact
    { ends := (ends_one c : Ends c.leaf (failed false call) [c.calls call false])
      kept := (if_neg (Option.some_ne_none call)).symm
      once := by
        rw [OnceAt, hwrites]
        exact ⟨List.nodup_nil, fun w hm => nomatch hm⟩
      quiet := fun _ => hwrites
      written := fun hf => nomatch hf }

@[simp] theorem failed_true (call : Call) (f : Option Call) : (failed true call <|> f) = f := rfl

@[simp] theorem failed_false (call : Call) (f : Option Call) : (failed false call <|> f) = some call := rfl

theorem handle_handles (pair' : Bool × Bool) (halloc : c.allocOk = true) (list : ResetList) :
    let r := handleConfigChange true pair' c list
    let f := handleFault pair' (decide (c.leaf ∈ names list)) c
    (r.1 = .ok ↔ f = none) ∧ Handles c pair' list f r.2.1 r.2.2 := by
  unfold handleConfigChange handleFault
  rw [exists_iff]
  cases c.configChangeOk with
  | false => exact ⟨iff_of_false (fun h => nomatch h) (Option.some_ne_none _), handles_failed rfl list⟩
  | true =>
    by_cases hseen : c.leaf ∈ names list
    · simp only [hseen, decide_true, Bool.not_true, Bool.false_eq_true, if_false, if_true, failed_true]
      refine ⟨True.intro, ?_⟩
      exact
        { ends := ⟨_, fun e he => by rw [List.mem_singleton.1 he]; rfl, (List.append_nil _).symm⟩
          kept := ((if_pos rfl).trans (if_pos hseen)).symm
          once := ⟨List.nodup_nil, fun w hm => nomatch hm⟩
          quiet := fun _ => rfl
          written := fun _ hm => absurd hseen hm }
    · simp only [hseen, decide_false, Bool.not_true, Bool.false_eq_true, if_false, failed_true]
      cases c.gateEnabledOk with
      | false =>
        exact ⟨iff_of_false (fun h => nomatch h) (Option.some_ne_none _), (handles_failed rfl list).cons rfl rfl⟩
      | true =>
        obtain ⟨hret, hends⟩ := apply_reports c pair'
        have hin : Handles c pair' list (applyFault pair' c) (if applyFault pair' c = none then recorded pair' c list else list)
            (applyConfigChange c pair'.1 pair'.2).2 :=
          { ends := hends
            kept := rfl
            once := apply_once c pair'
            quiet := fun hm => absurd hm hseen
            written := fun hf _ => apply_written hf }
        have hpush : configChangeListPush list c.leaf (pair'.1 && pair'.2) c.allocOk = (.ok, recorded pair' c list) := by
          rw [configChangeListPush, if_pos halloc, recorded, if_neg hseen]
        simp only [Bool.not_true, Bool.false_eq_true, if_false, if_true, failed_true, hpush]
        cases hf : applyFault pair' c with
        | none =>
          rw [hf, if_pos rfl] at hin
          rw [if_pos (hret.2 hf)]
          exact ⟨iff_of_true rfl rfl, (hin.cons rfl rfl).cons rfl rfl⟩
        | some call =>
          rw [hf, if_neg (Option.some_ne_none call)] at hin
          have hbad : (applyConfigChange c pair'.1 pair'.2).1 ≠ .ok := fun h => nomatch hf.symm.trans (hret.1 h)
          rw [if_neg hbad]
          exact ⟨iff_of_false hbad (Option.some_ne_none _), (hin.cons rfl rfl).cons rfl rfl⟩

/-- The loop over the changes. -/
def Implementation.body (m : Implementation) (pair : String → Bool × Bool) : Change → ResetList → Loop :=
  match m with
  | .sched => schedChange pair
  | .psfp => psfpChange pair

/-- Where the first failing call leaves the loop. -/
def Implementation.exit (m : Implementation) : Option Call → Next
  | none => .next
  | some call => if m.returns call then .return .operationFailed else .leave .operationFailed

theorem orElse_some {f g : Option Call} {call : Call} (h : (f <|> g) = some call) : f = some call ∨ g = some call := by
  cases f with
  | none => exact .inr h
  | some call' => exact .inl h

theorem failed_some {ok : Bool} {call call' : Call} (h : failed ok call = some call') : call' = call := by
  cases ok with
  | true => exact nomatch h
  | false => exact (Option.some.inj h).symm

/-- Once the port is open, no failing call makes the callback return at once. -/
theorem handleFault_leaves {seen : Bool} {call : Call} (h : handleFault pair' seen c = some call) (m : Implementation) :
    m.returns call = false := by
  have hwrite : ∀ {f g h' : Option Call}, ((f <|> g) <|> h') = some call →
      (∀ call', f = some call' → m.returns call' = false) → (∀ call', g = some call' → m.returns call' = false) →
      (∀ call', h' = some call' → m.returns call' = false) → m.returns call = false := by
    intro f g h' he hf hg hh
    rcases orElse_some he with he | he
    · rcases orElse_some he with he | he
      · exact hf call he
      · exact hg call he
    · exact hh call he
  have hcheck : ∀ call', (if pair'.1 && pair'.2 then failed c.validOk .validate else none) = some call' →
      m.returns call' = false := by
    intro call' h
    split at h
    · rw [failed_some h]
      cases m <;> rfl
    · exact nomatch h
  have hone : ∀ {ok : Bool} {call : Call}, m.returns call = false → ∀ call', failed ok call = some call' →
      m.returns call' = false := fun hr call' h => failed_some h ▸ hr
  rcases orElse_some h with h | h
  · exact hone (by cases m <;> rfl) call h
  · split at h
    · exact nomatch h
    · rcases orElse_some h with h | h
      · exact hone (by cases m <;> rfl) call h
      · unfold applyFault at h
        dsimp only at h
        split at h
        · exact hwrite h hcheck (hone (by cases m <;> rfl)) (hone (by cases m <;> rfl))
        · exact hwrite h hcheck (hone (by cases m <;> rfl)) (hone (by cases m <;> rfl))

theorem exit_handle {seen : Bool} (m : Implementation) {ret : SrError} (h : ret = .ok ↔ handleFault pair' seen c = none) :
    (if ret = .ok then Next.next else .leave .operationFailed) = m.exit (handleFault pair' seen c) := by
  cases hf : handleFault pair' seen c with
  | none => exact if_pos (h.2 hf)
  | some call =>
    have hbad : ret ≠ .ok := fun hr => nomatch hf.symm.trans (h.1 hr)
    rw [if_neg hbad, Implementation.exit, handleFault_leaves hf m, if_neg Bool.false_ne_true]

/-- **One change.** The callback goes on, leaves the loop or returns as the first
failing call says. -/
theorem body_handles (m : Implementation) (pair : String → Bool × Bool) (halloc : c.allocOk = true) (list : ResetList) :
    let r := m.body pair c list
    let f := fault m (pair c.leaf) (decide (c.leaf ∈ names list)) c
    r.next = m.exit f ∧ Handles c (pair c.leaf) list f r.list r.calls := by
  obtain ⟨hret, hin⟩ := handle_handles (pair c.leaf) halloc list
  cases m with
  | sched =>
    simp only [Implementation.body, schedChange, fault, reduceCtorEq, if_false, if_true]
    cases c.keyOk with
    | false => exact ⟨rfl, handles_failed rfl list⟩
    | true =>
      simp only [failed_true, Bool.not_true, Bool.false_eq_true, if_false]
      by_cases hop : c.op = .modified ∨ c.op = .created
      · rw [if_pos hop, if_pos hop]
        cases c.openOk with
        | false => exact ⟨rfl, (handles_failed rfl list).cons rfl rfl⟩
        | true =>
          cases c.featOk with
          | false => exact ⟨rfl, ((handles_failed rfl list).cons rfl rfl).cons rfl rfl⟩
          | true => exact ⟨exit_handle .sched hret, ((hin.cons rfl rfl).cons rfl rfl).cons rfl rfl⟩
      · rw [if_neg hop, if_neg hop, if_pos (num_deleted hop)]
        exact ⟨rfl, (handles_failed rfl list).cons rfl rfl⟩
  | psfp =>
    simp only [Implementation.body, psfpChange, fault, reduceCtorEq, if_false, if_true]
    cases c.keyOk with
    | false => exact ⟨rfl, handles_failed rfl list⟩
    | true =>
      cases c.gateKeyOk with
      | false => exact ⟨rfl, (handles_failed rfl list).cons rfl rfl⟩
      | true =>
        simp only [failed_true, Bool.not_true, Bool.false_eq_true, if_false]
        by_cases hop : c.op = .modified ∨ c.op = .created
        · rw [if_pos hop, if_pos hop]
          cases c.openOk with
          | false => exact ⟨rfl, ((handles_failed rfl list).cons rfl rfl).cons rfl rfl⟩
          | true => exact ⟨exit_handle .psfp hret, ((hin.cons rfl rfl).cons rfl rfl).cons rfl rfl⟩
        · rw [if_neg hop, if_neg hop, if_pos (num_deleted hop)]
          exact ⟨rfl, ((handles_failed rfl list).cons rfl rfl).cons rfl rfl⟩

/-! ## The loop -/

/-- The list when every change has been handled. -/
def recordAll (pair : String → Bool × Bool) (cs : List Change) (list : ResetList) : ResetList :=
  cs.foldl (fun list c => recorded (pair c.leaf) c list) list

theorem names_recorded (pair : Bool × Bool) (c : Change) (list : ResetList) :
    names (recorded pair c list) = if c.leaf ∈ names list then names list else names list ++ [c.leaf] := by
  unfold recorded
  split
  · rfl
  · exact List.map_append ..

theorem mem_recorded {leaf : String} : leaf ∈ names (recorded pair' c list) ↔ leaf ∈ names list ∨ leaf = c.leaf := by
  rw [names_recorded]
  split
  · rename_i hc
    exact ⟨.inl, fun h => h.elim id fun he => he ▸ hc⟩
  · rw [List.mem_append, List.mem_singleton]

theorem mem_recordAll {leaf : String} (cs : List Change) (list : ResetList) :
    leaf ∈ names (recordAll pair cs list) ↔ leaf ∈ names list ∨ ∃ c ∈ cs, c.leaf = leaf := by
  induction cs generalizing list with
  | nil => simp [recordAll]
  | cons c cs ih =>
    rw [recordAll, List.foldl_cons, ← recordAll, ih, mem_recorded, List.exists_mem_cons_iff, or_assoc, eq_comm]

theorem nodup_recordAll (cs : List Change) (h : (names list).Nodup) : (names (recordAll pair cs list)).Nodup := by
  induction cs generalizing list with
  | nil => exact h
  | cons c cs ih =>
    refine ih ?_
    rw [names_recorded]
    split
    · exact h
    · rename_i hc
      exact List.nodup_append.2 ⟨h, List.nodup_singleton _, fun a ha b hb he => hc (List.mem_singleton.1 hb ▸ he ▸ ha)⟩

/-- Each pair that is recorded triggers when both its values are true. -/
def Triggers (pair : String → Bool × Bool) (list : ResetList) : Prop :=
  ∀ r ∈ list, r.value = ((pair r.xpath).1 && (pair r.xpath).2)

theorem triggers_recordAll (cs : List Change) (h : Triggers pair list) : Triggers pair (recordAll pair cs list) := by
  induction cs generalizing list with
  | nil => exact h
  | cons c cs ih =>
    refine ih ?_
    change Triggers pair (recorded (pair c.leaf) c list)
    unfold recorded
    split
    · exact h
    · exact List.forall_mem_append.2 ⟨h, fun r hr => by rw [List.mem_singleton.1 hr]⟩

/-- What the loop over the changes leaves. -/
structure Looped (m : Implementation) (pair : String → Bool × Bool) (cs : List Change) (list : ResetList) (r : Loop) :
    Prop where
  next : r.next = m.exit ((firstFault m pair (names list) cs).map Prod.snd)
  kept : firstFault m pair (names list) cs = none → r.list = recordAll pair cs list
  left : ∀ seen call, firstFault m pair (names list) cs = some (seen, call) → names r.list = seen
  failed : (∃ e ∈ r.calls, e.ok = false) ↔ firstFault m pair (names list) cs ≠ none
  once : (writes r.calls).Nodup
  fresh : ∀ w ∈ writes r.calls, w.1 ∉ names list
  written : firstFault m pair (names list) cs = none → ∀ c ∈ cs, c.leaf ∉ names list →
    Written c.leaf (pair c.leaf) r.calls

theorem loop_looped (m : Implementation) (pair : String → Bool × Bool) (cs : List Change) (halloc : ∀ c ∈ cs, c.allocOk = true) (list : ResetList) :
    Looped m pair cs list (loop (m.body pair) cs list) := by
  induction cs generalizing list with
  | nil =>
    exact
      { next := rfl
        kept := fun _ => rfl
        left := fun _ _ h => nomatch h
        failed := iff_of_false (fun ⟨_, he, _⟩ => nomatch he) fun h => h rfl
        once := List.nodup_nil
        fresh := fun _ h => nomatch h
        written := fun _ _ h => nomatch h }
  | cons c cs ih =>
    obtain ⟨hc, hcs⟩ := List.forall_mem_cons.1 halloc
    obtain ⟨hnext, hin⟩ := body_handles m pair hc list
    have hfresh : ∀ w ∈ writes (m.body pair c list).calls, w.1 ∉ names list := fun w hw hm => by
      rw [hin.quiet (hin.once.2 w hw ▸ hm)] at hw
      exact nomatch hw
    cases hf : fault m (pair c.leaf) (decide (c.leaf ∈ names list)) c with
    | some call =>
      rw [hf] at hnext hin
      have hloop : loop (m.body pair) (c :: cs) list = m.body pair c list := by
        rw [loop, if_neg]
        rw [hnext, Implementation.exit]
        split <;> exact fun he => nomatch he
      have hff : firstFault m pair (names list) (c :: cs) = some (names list, call) := by rw [firstFault, hf]
      rw [hloop]
      have hlist := hin.kept
      rw [if_neg (Option.some_ne_none _)] at hlist
      exact
        { next := by rw [hnext, hff]; rfl
          kept := fun h => nomatch hff.symm.trans h
          left := fun seen call' h => by
            obtain ⟨rfl, -⟩ := Prod.mk.inj (Option.some.inj (hff.symm.trans h))
            rw [hlist]
          failed := by
            rw [hff]
            exact iff_of_true (hin.ends.failed_iff.2 (Option.some_ne_none _)) (Option.some_ne_none _)
          once := hin.once.1
          fresh := hfresh
          written := fun h => nomatch hff.symm.trans h }
    | none =>
      rw [hf] at hnext hin
      have hlist := hin.kept
      rw [if_pos rfl] at hlist
      have ih := ih hcs (m.body pair c list).list
      have hnames : names (m.body pair c list).list =
          if c.leaf ∈ names list then names list else names list ++ [c.leaf] := by rw [hlist, names_recorded]
      have hff : firstFault m pair (names list) (c :: cs) =
          firstFault m pair (names (m.body pair c list).list) cs := by rw [firstFault, hf, hnames]
      have hmem : ∀ {leaf}, leaf ∈ names (m.body pair c list).list ↔ leaf ∈ names list ∨ leaf = c.leaf := by
        rw [hlist]
        exact mem_recorded
      have hwrites : writes ((m.body pair c list).calls ++ (loop (m.body pair) cs (m.body pair c list).list).calls) =
          writes (m.body pair c list).calls ++ writes (loop (m.body pair) cs (m.body pair c list).list).calls :=
        List.filterMap_append
      have hgo : (m.body pair c list).next = .next := hnext
      rw [loop, if_pos hgo]
      exact
        { next := by
            rw [hff]
            exact ih.next
          kept := fun h => by
            rw [recordAll, List.foldl_cons, ← recordAll, ← hlist]
            exact ih.kept (hff ▸ h)
          left := fun seen call h => ih.left seen call (hff ▸ h)
          failed := by
            rw [hff, ← ih.failed]
            refine ⟨fun ⟨e, he, hbad⟩ => ?_, fun ⟨e, he, hbad⟩ => ⟨e, List.mem_append_right _ he, hbad⟩⟩
            rcases List.mem_append.1 he with he | he
            · exact absurd rfl (hin.ends.failed_iff.1 ⟨e, he, hbad⟩)
            · exact ⟨e, he, hbad⟩
          once := by
            rw [hwrites]
            refine List.nodup_append.2 ⟨hin.once.1, ih.once, fun w hw w' hw' he => ?_⟩
            exact ih.fresh w' hw' (hmem.2 (.inr (he ▸ hin.once.2 w hw)))
          fresh := fun w hw => by
            rw [hwrites] at hw
            rcases List.mem_append.1 hw with hw | hw
            · exact hfresh w hw
            · exact fun hm => ih.fresh w hw (hmem.2 (.inl hm))
          written := fun h c' hc' hm => by
            rw [hff] at h
            by_cases heq : c'.leaf = c.leaf
            · rw [heq] at hm ⊢
              exact (hin.written rfl hm).subset (List.subset_append_left _ _)
            · rcases List.mem_cons.1 hc' with rfl | hc'
              · exact absurd rfl heq
              · have hnew : c'.leaf ∉ names (m.body pair c list).list := fun hmem' => (hmem.1 hmem').elim hm heq
                exact (ih.written h c' hc' hnew).subset (List.subset_append_right _ _) }

/-! ## A transaction -/

/-- What queueing a list does when memory can be had. -/
theorem enqueue_pushed (s : Helper) (list : ResetList) (w : Nat) :
    (configChangeListEnqueue s list true w).1 = [] ∧
      (configChangeListEnqueue s list true w).2.pushed = s.pushed ++ if triggerAny list then [list] else [] := by
  have hsignal : ∀ s' : Helper, (condSignal s' w).pushed = s'.pushed := by
    intro s'
    unfold condSignal
    split <;> rfl
  unfold configChangeListEnqueue
  cases list with
  | nil => exact ⟨rfl, (List.append_nil _).symm⟩
  | cons r list =>
    cases htrigger : triggerAny (r :: list) with
    | false => exact ⟨rfl, (List.append_nil _).symm⟩
    | true => exact ⟨rfl, hsignal _⟩

theorem resets_enqueued (list : ResetList) :
    resets (if triggerAny list then [list] else []) = (list.filter Reset.value).map Reset.xpath := by
  unfold resets
  split
  · simp
  · rename_i h
    have hnone : list.filter Reset.value = [] :=
      List.filter_eq_nil_iff.2 fun r hr hv => h (List.any_eq_true.2 ⟨r, hr, hv⟩)
    rw [hnone]
    rfl

/-- The leaves that are reset by what is queued. -/
theorem mem_resets (h : Triggers pair list) (leaf : String) :
    leaf ∈ (list.filter Reset.value).map Reset.xpath ↔ leaf ∈ names list ∧ pair leaf = (true, true) := by
  simp only [names, List.mem_map, List.mem_filter]
  constructor
  · rintro ⟨r, ⟨hr, hv⟩, rfl⟩
    rw [h r hr, Bool.and_eq_true] at hv
    exact ⟨⟨r, hr, rfl⟩, Prod.ext hv.1 hv.2⟩
  · rintro ⟨⟨r, hr, rfl⟩, hp⟩
    exact ⟨r, ⟨hr, by rw [h r hr, hp]; rfl⟩, rfl⟩

/-- The value that is returned when the loop was left with an error. -/
def Implementation.left (m : Implementation) (ret : SrError) : SrError :=
  match m with
  | .sched => ret
  | .psfp => .ok

theorem cb_change (m : Implementation) (s : Plugin) (pair : String → Bool × Bool) (cs : List Change) :
    m.cb true s (.change true pair cs) =
      let r := loop (m.body pair) cs s.resetList
      match r.next with
      | .return ret => ((ret, r.calls), { s with resetList := r.list })
      | .leave ret => ((m.left ret, r.calls), { s with resetList := [] })
      | .next => ((.ok, r.calls), { s with resetList := r.list }) := by
  cases m with
  | sched =>
    simp only [Implementation.cb, interfaceSchedConfigChangeCb, Implementation.body, Bool.not_true, Bool.false_eq_true, if_false]
    cases (loop (schedChange pair) cs s.resetList).next <;> rfl
  | psfp =>
    simp only [Implementation.cb, psfpConfigChangeCb, Implementation.body, Bool.not_true, Bool.false_eq_true, if_false]
    cases (loop (psfpChange pair) cs s.resetList).next <;> rfl

theorem cb_noIter (m : Implementation) (s : Plugin) (pair : String → Bool × Bool) (cs : List Change) :
    m.cb true s (.change false pair cs) = ((.other, [⟨"", .changesIter, false⟩]), s) := by
  cases m <;> rfl

theorem cb_done (m : Implementation) (s : Plugin) (allocOk : Bool) (w : Nat) :
    (m.cb true s (.done allocOk w)).2 = otherEvents s (.done allocOk w) := by
  cases m <;> rfl

theorem cb_abort (m : Implementation) (s : Plugin) : (m.cb true s .abort).2 = { s with resetList := [] } := by
  cases m <;> rfl

/-- A transaction that ends with an error. -/
theorem correct_error {tx : Transaction} {s s' : Plugin} {ret : SrError} {calls : List Called} (hret : ret ≠ .ok)
    (hfail : ∃ e ∈ calls, e.ok = false) (hon : (writes calls).Nodup) (hq : s'.helper = s.helper) :
    Correct tx s ((ret, calls), s') where
  reported := iff_of_true hret hfail
  written := fun h => absurd h hret
  once := hon
  queued := by
    refine ⟨[], by rw [hq, List.append_nil], List.nodup_nil, fun leaf => ?_⟩
    exact iff_of_false (fun h => nomatch h) fun h => hret h.1

section Step

variable {s : Plugin} {tx : Transaction} (hs : s.resetList = []) (hiter : tx.iterOk = true)
include hs hiter

/-- A transaction in which no call fails. -/
theorem transact_good (ha : tx.Allocated) (hff : firstFault m tx.pair [] tx.changes = none) :
    (transact m s tx).2.resetList = [] ∧ Correct tx s (transact m s tx) := by
  have hl := loop_looped m tx.pair tx.changes ha.1 []
  have hnext := hl.next
  have hkept := hl.kept hff
  have hfail := hl.failed
  rw [show firstFault m tx.pair (names []) tx.changes = none from hff] at hnext hfail
  unfold transact
  rw [hiter, cb_change, hs]
  dsimp only
  rw [show (loop (m.body tx.pair) tx.changes []).next = .next from hnext]
  generalize loop (m.body tx.pair) tx.changes [] = r at hl hkept hfail
  have hwritten : ∀ c ∈ tx.changes, Written c.leaf (tx.pair c.leaf) r.calls := fun c hc =>
    hl.written hff c hc fun h => nomatch h
  have hreported : SrError.ok ≠ .ok ↔ ∃ e ∈ r.calls, e.ok = false :=
    iff_of_false (fun h => h rfl) fun h => hfail.1 h rfl
  have hnodup : (names r.list).Nodup := by
    rw [hkept]
    exact nodup_recordAll _ List.nodup_nil
  have htrig : Triggers tx.pair r.list := by
    rw [hkept]
    exact triggers_recordAll _ fun r hr => nomatch hr
  have hmem : ∀ leaf, leaf ∈ names r.list ↔ ∃ c ∈ tx.changes, c.leaf = leaf := fun leaf => by
    rw [hkept, mem_recordAll]
    exact ⟨fun h => h.resolve_left (fun h => nomatch h), .inr⟩
  rw [if_pos rfl]
  cases hcom : tx.committed with
  | false =>
    simp only [Bool.false_eq_true, if_false, cb_abort]
    refine ⟨trivial, hreported, fun _ => hwritten, hl.once, [], (List.append_nil _).symm, List.nodup_nil, fun leaf => ?_⟩
    exact iff_of_false (fun h => nomatch h) fun h => Bool.false_ne_true (hcom.symm.trans h.2.1)
  | true =>
    obtain ⟨hempty, hpushed⟩ := enqueue_pushed s.helper r.list tx.w
    simp only [if_true, cb_done, otherEvents, ha.2]
    refine ⟨hempty, hreported, fun _ => hwritten, hl.once, _, hpushed, ?_, fun leaf => ?_⟩
    · rw [resets_enqueued]
      exact hnodup.sublist (List.filter_sublist.map _)
    · rw [resets_enqueued, mem_resets htrig, hmem]
      exact ⟨fun h => ⟨rfl, hcom, h⟩, fun h => h.2.2⟩

/-- A transaction in which a call fails. -/
theorem transact_failed (ha : tx.Allocated) {seen : List String} {call : Call}
    (hff : firstFault m tx.pair [] tx.changes = some (seen, call)) :
    ((transact m s tx).2.resetList = [] ∧ Correct tx s (transact m s tx)) ↔
      m.reports call = true ∧ (m.returns call = true → seen = []) := by
  have hl := loop_looped m tx.pair tx.changes ha.1 []
  have hnext := hl.next
  have hleft := hl.left seen call hff
  have hfail := hl.failed.2 (hff.symm ▸ Option.some_ne_none _)
  rw [show firstFault m tx.pair (names []) tx.changes = some (seen, call) from hff] at hnext
  unfold transact
  rw [hiter, cb_change, hs]
  dsimp only
  generalize loop (m.body tx.pair) tx.changes [] = r at hl hleft hfail hnext
  rw [hnext, Option.map_some, Implementation.exit]
  cases hret : m.returns call with
  | true =>
    have hrep : m.reports call = true := by
      cases m with
      | sched => rfl
      | psfp => exact hret
    have hnil : r.list = [] ↔ seen = [] := by rw [← hleft, names, List.map_eq_nil_iff]
    simp only [if_true, reduceCtorEq, if_false, hrep, true_and, true_implies]
    exact ⟨fun h => hnil.1 h.1, fun h => ⟨hnil.2 h, correct_error (fun h => nomatch h) hfail hl.once rfl⟩⟩
  | false =>
    simp only [Bool.false_eq_true, if_false, false_implies, and_true]
    cases m with
    | sched => exact iff_of_true ⟨rfl, correct_error (fun h => nomatch h) hfail hl.once rfl⟩ rfl
    | psfp =>
      refine iff_of_false (fun ⟨_, hc⟩ => ?_) fun h => Bool.false_ne_true (hret.symm.trans h)
      have hbad := hc.reported.2
      simp only [Implementation.left, if_true] at hbad
      exact hbad hfail rfl

end Step

theorem transact_step (tx : Transaction) {s : Plugin} (hs : s.resetList = []) :
    ((transact m s tx).2.resetList = [] ∧ Correct tx s (transact m s tx) ∧ tx.Allocated) ↔ Clean m tx := by
  rw [← and_assoc, Clean, and_comm]
  refine and_congr_right fun ha => ?_
  cases hiter : tx.iterOk with
  | false =>
    have hcb : transact m s tx = ((.other, [⟨"", .changesIter, false⟩]), s) := by
      unfold transact
      rw [hiter, cb_noIter]
      rfl
    rw [hcb]
    refine iff_of_true ⟨hs, ?_⟩ fun h => nomatch h
    exact correct_error (fun h => nomatch h) ⟨_, List.mem_singleton_self _, rfl⟩ List.nodup_nil rfl
  | true =>
    cases hff : firstFault m tx.pair [] tx.changes with
    | none => exact iff_of_true (transact_good hs hiter ha hff) fun _ _ _ h => nomatch h
    | some f =>
      obtain ⟨seen, call⟩ := f
      rw [transact_failed hs hiter ha hff]
      refine ⟨fun h _ seen' call' he => ?_, fun h => h rfl seen call rfl⟩
      obtain ⟨rfl, rfl⟩ := Prod.mk.inj (Option.some.inj he)
      exact h

theorem guarded_forall {s : Plugin} (txs : List Transaction) :
    Guarded (transact m) (fun _ tx => Clean m tx) s txs ↔ ∀ tx ∈ txs, Clean m tx := by
  induction txs generalizing s with
  | nil => exact iff_of_true True.intro fun _ h => nomatch h
  | cons tx txs ih =>
    rw [List.forall_mem_cons, ← ih]
    exact Iff.rfl

/-- **The transactions of a run are all carried out as they should, with nothing
left from one to the next, exactly when each one is clean.** -/
theorem transactions_iff (m : Implementation) (txs : List Transaction) :
    ((∀ pre suf, txs = pre ++ suf → (after (transact m) {} pre).resetList = []) ∧
        Guarded (transact m) (fun s tx => Correct tx s (transact m s tx) ∧ tx.Allocated) {} txs) ↔
      ∀ tx ∈ txs, Clean m tx := by
  refine Iff.trans ?_ (guarded_forall (s := {}) txs)
  exact steps_iff_guarded (I := fun s : Plugin => s.resetList = []) (K := fun _ => True) (fun _ _ _ _ _ => True.intro)
    (fun _ tx _ hs => transact_step tx hs) True.intro rfl txs

/-- A driver write that fails is not reported by the callback for stream gates. -/
theorem not_correct_swallowed :
    ¬ Correct ⟨fun _ => (true, true), [{ op := .modified, leaf := "gate", setConfigChangeOk := false }], true, true, true, 0⟩
      {} (transact .psfp {}
        ⟨fun _ => (true, true), [{ op := .modified, leaf := "gate", setConfigChangeOk := false }], true, true, true, 0⟩) := by
  intro h
  exact h.reported.2 ⟨⟨"gate", .setConfigChange true, false⟩, by decide, rfl⟩ (by decide)

end TsnSwitch.Sysrepo
