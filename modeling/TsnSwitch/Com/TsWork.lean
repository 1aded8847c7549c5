/-
The work that takes the transmit timestamps (edge_com_ts.c) leaves none in the
hardware: whenever the work rests, the hardware has no timestamp of a port that is
timestamped (`stamps_taken`). With lines that are triggered by an edge this needs
that no interrupt comes at the moment the work clears the status. The poll of the
DMA has a way around that, and the work has none (`stamps_left`).
-/
import TsnSwitch.Com.Poll

namespace TsnSwitch.Com

open Lib

section Work

variable {Dev : Type*} [DecidableEq Dev] (nd : NetDevs Dev) (irq : EdgxBrIrq)

/-- The work has still to look at the port. -/
def TsWork.Todo (work : TsWork) (ptid : Nat) : Prop :=
  work.pending = true ∨
    match work.running with
    | some .clr => True
    | some (.find q) => q ≤ ptid
    | _ => False

namespace ComState

variable (s : ComState Dev)

/-- A port that is timestamped has a timestamp. -/
def Stamped (ptid : Fin EDGX_BR_MAX_PORTS) : Prop := s.hwTs ptid ≠ [] ∧ (s.dma.ts ptid).isSome = true

/-- Somebody comes for the timestamps, without being called. -/
def TsBusy : Prop :=
  (∃ v, .queueWork ∈ s.isr v) ∨
    match irq.trig with
    | .level => s.work.pending = true ∨ s.work.running ≠ none
    | .edge => s.work.pending = true ∨ s.work.running = some .clr

end ComState

structure TsInv (s : ComState Dev) : Prop where
  isr : ∀ v, ClosesFor (· = EDGX_IRQ_NR_TS_TX) .queueWork (s.isr v)
  watched : ∀ ptid, s.irqs.Watched EDGX_IRQ_NR_TS_TX (s.Stamped ptid) (s.work.Todo ptid.val)
  heard : s.irqs.Heard irq.trig EDGX_IRQ_NR_TS_TX (s.TsBusy irq)

/-- No interrupt of a timestamp comes at the moment the work clears the status. -/
def ComOp.Apart : ComOp Dev → Prop
  | .workStep _ again => again.getLsbD EDGX_IRQ_NR_TS_TX = false
  | _ => True

theorem servedBy_ts : ServedBy (· = EDGX_IRQ_NR_TS_TX) .queueWork :=
  ⟨fun _ => rfl, fun h => absurd h (by decide), fun h => absurd h (by decide)⟩

variable {nd irq} {s : ComState Dev}

/-! ## Steps -/

namespace TsInv

omit [DecidableEq Dev] in
/-- What the work does not use changes. -/
theorem setRest (h : TsInv irq s) (rx : RxRing) (stamped : List (Skb Dev × BitVec 64 × BitVec 32)) (napi : Napi)
    (poll : Option Poll) (ends : Nat → List Nat) : TsInv irq { s with rx, stamped, napi, poll, ends } :=
  ⟨h.isr, h.watched, h.heard⟩

omit [DecidableEq Dev] in
theorem setIrqs (h : TsInv irq s) {t : Irqs 16}
    (hwatched : ∀ work todo, s.irqs.Watched EDGX_IRQ_NR_TS_TX work todo → t.Watched EDGX_IRQ_NR_TS_TX work todo)
    (hheard : s.irqs.Heard irq.trig EDGX_IRQ_NR_TS_TX (s.TsBusy irq) →
      t.Heard irq.trig EDGX_IRQ_NR_TS_TX (s.TsBusy irq)) : TsInv irq { s with irqs := t } :=
  ⟨h.isr, fun ptid => hwatched _ _ (h.watched ptid), hheard h.heard⟩

omit [DecidableEq Dev] in
theorem owe (h : TsInv irq s) (bits : BitVec 16) : TsInv irq { s with irqs := s.irqs.owe bits } :=
  h.setIrqs (fun _ _ hw => hw.owe fun _ => id) fun hh => hh.owe bits

omit [DecidableEq Dev] in
theorem clearOther (h : TsInv irq s) (nr : Nat) (hnr : nr ≠ EDGX_IRQ_NR_TS_TX) (again : BitVec 16) :
    TsInv irq { s with irqs := edgxBrClrIntStat s.irqs (irqBit nr) again } :=
  h.setIrqs (fun _ _ hw => hw.clear (fun hbit => absurd (eq_of_irqBit hbit).symm hnr) again) fun hh => hh.clear _ again

omit [DecidableEq Dev] in
theorem enable (h : TsInv irq s) (nr : Nat) : TsInv irq { s with irqs := edgxBrIrqEnable irq s.irqs nr } := by
  unfold edgxBrIrqEnable
  split
  · exact h.setIrqs (fun _ _ hw => hw.setMask _) fun hh => hh.setMask _
  · exact h

omit [DecidableEq Dev] in
/-- Ports that are timestamped stay so, and others do not become so. -/
theorem setDma (h : TsInv irq s) {d : EdgxComDma Dev} (hd : ∀ ptid, (d.ts ptid).isSome = (s.dma.ts ptid).isSome) :
    TsInv irq { s with dma := d } where
  isr := h.isr
  watched ptid := (h.watched ptid).mono (And.imp_right fun hsome => hd ptid ▸ hsome) id
  heard := h.heard

omit [DecidableEq Dev] in
theorem stamp (h : TsInv irq s) (ptid : Fin EDGX_BR_MAX_PORTS) (r : TsRegs) : TsInv irq (s.stamp ptid r) where
  isr := h.isr
  watched p := (h.watched p).owe fun hbit => absurd hbit (by decide)
  heard := h.heard.owe _

omit [DecidableEq Dev] in
theorem setIsr (h : TsInv irq s) {v : Nat} {prog : List IsrAct} (hok : ClosesFor (· = EDGX_IRQ_NR_TS_TX) .queueWork prog)
    (hprog : .queueWork ∈ s.isr v → .queueWork ∈ prog) : TsInv irq { s with isr := Function.update s.isr v prog } where
  isr v' := by
    dsimp only
    by_cases hv : v' = v
    · rw [hv, Function.update_self]
      exact hok
    · rw [Function.update_of_ne hv]
      exact h.isr v'
  watched := h.watched
  heard := h.heard.mono <| Or.imp_left fun ⟨v', hv'⟩ => by
    refine ⟨v', ?_⟩
    dsimp only
    by_cases hv : v' = v
    · rw [hv] at hv' ⊢
      rw [Function.update_self]
      exact hprog hv'
    · rwa [Function.update_of_ne hv]

omit [DecidableEq Dev] in
theorem isrEnter (h : TsInv irq s) (htrig : irq.shared = true → irq.trig = .level) (v : Nat) :
    TsInv irq (s.isrEnter irq v) := by
  unfold ComState.isrEnter
  split
  · rename_i hcalled
    obtain ⟨hidle, hreq, _⟩ := hcalled
    obtain ⟨prog, hprog⟩ := Option.isSome_iff_exists.1 hreq
    have hi : TsInv irq { s with isr := Function.update s.isr v ((isrOf irq v).getD []) } :=
      h.setIsr (by rw [hprog]; exact servedBy_ts.closes_isrOf hprog) (by rw [hidle]; exact fun hmem => nomatch hmem)
    refine hi.setIrqs (fun _ _ hw => hw.take _) fun hh => hh.take fun hedge hbit => .inl ⟨v, ?_⟩
    have hshared : irq.shared = false := by
      rw [Bool.eq_false_iff]
      intro hshared
      rw [htrig hshared] at hedge
      exact nomatch hedge
    rw [vecBits, hshared] at hbit
    obtain rfl := eq_of_irqBit hbit
    dsimp only
    rw [Function.update_self, isrOf, hshared]
    exact List.mem_cons_of_mem _ (List.mem_singleton_self _)
  · exact h

omit [DecidableEq Dev] in
theorem pop (h : TsInv irq s) {v : Nat} {a : IsrAct} {rest : List IsrAct} (hprog : s.isr v = a :: rest)
    (hok : ClosesFor (· = EDGX_IRQ_NR_TS_TX) .queueWork rest) (ha : a ≠ .queueWork) :
    TsInv irq { s with isr := Function.update s.isr v rest } := by
  refine h.setIsr hok fun hmem => ?_
  rw [hprog] at hmem
  exact (List.mem_cons.1 hmem).resolve_left (Ne.symm ha)

omit [DecidableEq Dev] in
/-- Work that is queued looks at everything. -/
theorem queueWork (h : TsInv irq s) {v : Nat} {rest : List IsrAct}
    (hok : ClosesFor (· = EDGX_IRQ_NR_TS_TX) .queueWork rest) :
    TsInv irq { s with work := { s.work with pending := true }, isr := Function.update s.isr v rest } where
  isr v' := by
    dsimp only
    by_cases hv : v' = v
    · rw [hv, Function.update_self]
      exact hok
    · rw [Function.update_of_ne hv]
      exact h.isr v'
  watched ptid := (h.watched ptid).mono id fun _ => .inl rfl
  heard := h.heard.mono fun _ => .inr <| by split <;> exact .inl rfl

omit [DecidableEq Dev] in
theorem isrStep (h : TsInv irq s) (v : Nat) (again : BitVec 16) : TsInv irq (s.isrStep irq v again) := by
  have hok := h.isr v
  unfold ComState.isrStep
  split
  · exact h
  · rename_i rest hprog
    rw [hprog] at hok
    dsimp only
    split
    · exact h.pop hprog hok nofun
    · refine h.setIsr hok fun hmem => ?_
      rw [hprog] at hmem
      exact List.mem_cons_of_mem _ ((List.mem_cons.1 hmem).resolve_left nofun)
  · rename_i intmask rest hprog
    rw [hprog] at hok
    refine h.setIsr (closesFor_append (servedBy_ts.closes_single _) hok) fun hmem => ?_
    rw [hprog] at hmem
    exact List.mem_append_right _ ((List.mem_cons.1 hmem).resolve_left nofun)
  · rename_i nr rest hprog
    rw [hprog] at hok
    have hi := h.pop hprog hok.2 nofun
    unfold edgxBrIrqDisable
    split
    · rename_i htrig
      refine hi.setIrqs (fun _ _ hw => hw.clrMask _) fun hh => ?_
      rw [htrig] at hh ⊢
      refine hh.clrMask fun hbit => .inl ⟨v, ?_⟩
      dsimp only
      rw [Function.update_self]
      exact hok.1 (eq_of_irqBit hbit).symm
    · exact hi
  · rename_i rest hprog
    rw [hprog] at hok
    exact (h.pop hprog hok nofun).setRest s.rx s.stamped _ s.poll s.ends
  · rename_i rest hprog
    rw [hprog] at hok
    exact h.queueWork hok
  · rename_i rest hprog
    rw [hprog] at hok
    exact (h.pop hprog hok nofun).clearOther EDGX_IRQ_NR_DMA_ERR (by decide) again

theorem pollAt (h : TsInv irq s) {n : Nat} (hinv : PollInv irq n s) (p : Poll) (cpu : Nat) (env : RxEnv)
    (again : BitVec 16) (goOn : Bool) : TsInv irq (s.pollAt nd p cpu env again goOn) := by
  have hts (j : Nat) := (txKept_deqTx nd hinv.tx j).ts
  unfold ComState.pollAt
  split
  · dsimp only
    split
    · exact (h.setDma (hts _)).setRest s.rx s.stamped s.napi _ s.ends
    · exact h.setRest s.rx s.stamped s.napi _ s.ends
  · exact (h.clearOther EDGX_IRQ_NR_DMA_TX (by decide) again).setRest s.rx s.stamped s.napi _ s.ends
  · dsimp only
    split
    · exact (h.setDma (hts _)).setRest s.rx s.stamped s.napi _ s.ends
    · exact h.setRest s.rx s.stamped s.napi _ s.ends
  · dsimp only
    split
    · split <;> exact h.setRest _ s.stamped s.napi _ s.ends
    · exact h.setRest s.rx s.stamped s.napi _ s.ends
  · exact h.setRest _ s.stamped s.napi _ s.ends
  · exact (h.clearOther EDGX_IRQ_NR_DMA_RX (by decide) again).setRest s.rx s.stamped s.napi _ s.ends
  · dsimp only
    split <;> exact h.setRest _ s.stamped s.napi _ s.ends
  · exact h.setRest _ s.stamped s.napi _ s.ends
  · dsimp only
    split_ifs <;> exact h.setRest s.rx s.stamped s.napi _ s.ends
  · dsimp only
    split
    · exact h.setRest s.rx s.stamped _ _ _
    · exact h

/-! ### The work -/

omit [DecidableEq Dev] in
theorem startWork (h : TsInv irq s) : TsInv irq s.startWork := by
  unfold ComState.startWork
  split
  · exact {
      isr := h.isr
      watched := fun ptid => (h.watched ptid).mono id fun _ => .inr True.intro
      heard := h.heard.mono fun _ => .inr <| by
        split
        · exact .inr nofun
        · exact .inr rfl }
  · exact h

omit [DecidableEq Dev] in
/-- The work goes on: what it has still to look at is the same, but for what has been
looked at. -/
theorem move (h : TsInv irq s) {pc pc' : WorkAt} (hpc : s.work.running = some pc)
    (htodo : ∀ ptid : Fin EDGX_BR_MAX_PORTS, s.Stamped ptid → s.work.Todo ptid.val →
      ({ s.work with running := some pc' } : TsWork).Todo ptid.val)
    (hclr : pc ≠ .clr) : TsInv irq { s with work := { s.work with running := some pc' } } where
  isr := h.isr
  watched ptid hst := (h.watched ptid hst).imp_left (htodo ptid hst)
  heard := h.heard.mono <| Or.imp_right fun hbusy => by
    split
    · exact .inr nofun
    · rename_i htrig
      rw [htrig] at hbusy
      refine .inl (hbusy.resolve_right fun he => hclr ?_)
      exact Option.some.inj (hpc.symm.trans he)

omit [DecidableEq Dev] in
/-- The work clears the status before it looks at the ports. -/
theorem clr (h : TsInv irq s) {again : BitVec 16}
    (hagain : irq.trig = .edge → again.getLsbD EDGX_IRQ_NR_TS_TX = false) :
    TsInv irq { s with
      irqs := edgxBrClrIntStat s.irqs (irqBit EDGX_IRQ_NR_TS_TX) again
      work := { s.work with running := some (.find 0) } } where
  isr := h.isr
  watched ptid := by
    have hw : s.irqs.Watched EDGX_IRQ_NR_TS_TX (s.Stamped ptid)
        (({ s.work with running := some (.find 0) } : TsWork).Todo ptid.val) :=
      (h.watched ptid).mono id fun _ => .inr (Nat.zero_le _)
    exact hw.clear (fun _ _ => .inr (Nat.zero_le _)) again
  heard := by
    have hh := h.heard.clear (irqBit EDGX_IRQ_NR_TS_TX) again
    unfold ComState.TsBusy at *
    cases htrig : irq.trig with
    | level =>
      rw [htrig] at hh
      exact hh.mono (Or.imp_right fun _ => .inr nofun)
    | edge =>
      rw [htrig] at hh
      refine ⟨hh.1, fun hstat => absurd hstat ?_⟩
      have hbit : (irqBit EDGX_IRQ_NR_TS_TX).getLsbD EDGX_IRQ_NR_TS_TX = true := by decide
      dsimp only [edgxBrClrIntStat, Irqs.clear, Irqs.write]
      rw [BitVec.getLsbD_or, BitVec.getLsbD_and, BitVec.getLsbD_not, hbit, hagain htrig]
      simp

omit [DecidableEq Dev] in
theorem findTx (h : TsInv irq s) {ptid : Fin EDGX_BR_MAX_PORTS} {pts : EdgxComPts (Skb Dev)} {r : TsRegs}
    {rs : List TsRegs} (hpts : s.dma.ts ptid = some pts) (hhw : s.hwTs ptid = r :: rs) (curSec : BitVec 64) :
    TsInv irq (s.findTx ptid pts curSec r rs) where
  isr := h.isr
  watched p := by
    refine (h.watched p).mono (fun ⟨hne, hsome⟩ => ?_) id
    by_cases hp : p = ptid
    · subst hp
      exact ⟨by rw [hhw]; exact List.cons_ne_nil r rs, by rw [hpts]; rfl⟩
    · dsimp only [ComState.findTx] at hne hsome
      rw [Function.update_of_ne hp] at hne hsome
      exact ⟨hne, hsome⟩
  heard := h.heard

omit [DecidableEq Dev] in
/-- The work is done, and its line is opened. -/
theorem finish (h : TsInv irq s) (hpc : s.work.running = some .enable) :
    TsInv irq { s with
      irqs := edgxBrIrqEnable irq s.irqs EDGX_IRQ_NR_TS_TX
      work := { s.work with running := none } } where
  isr := h.isr
  watched ptid := ((h.enable EDGX_IRQ_NR_TS_TX).watched ptid).mono id fun htodo => by
    refine .inl (htodo.resolve_right ?_)
    dsimp only
    rw [hpc]
    exact id
  heard := by
    have hh := h.heard
    unfold edgxBrIrqEnable ComState.TsBusy at *
    cases htrig : irq.trig with
    | level =>
      refine .inl ?_
      rw [if_pos rfl]
      dsimp only [edgxBrSetIntMask, Irqs.setMask, Irqs.write]
      rw [BitVec.getLsbD_or, show (irqBit EDGX_IRQ_NR_TS_TX).getLsbD EDGX_IRQ_NR_TS_TX = true by decide, Bool.or_true]
    | edge =>
      rw [htrig] at hh
      rw [if_neg nofun]
      refine hh.mono (Or.imp_right fun hbusy => .inl (hbusy.resolve_right ?_))
      rw [hpc]
      exact nofun

omit [DecidableEq Dev] in
theorem workAt (h : TsInv irq s) {pc : WorkAt} (hpc : s.work.running = some pc) (curSec : BitVec 64) {again : BitVec 16}
    (hagain : irq.trig = .edge → again.getLsbD EDGX_IRQ_NR_TS_TX = false) :
    TsInv irq (s.workAt irq pc curSec again) := by
  unfold ComState.workAt
  cases pc with
  | clr => exact h.clr hagain
  | find ptid =>
    dsimp only
    split
    · rename_i hlt
      split
      · rename_i hpts hhw
        exact h.findTx hpts hhw curSec
      · rename_i hnone
        refine h.move hpc (fun p hst htodo => htodo.imp_right fun hle => ?_) nofun
        rw [hpc] at hle
        -- the port has nothing, or is not timestamped
        refine Nat.lt_of_le_of_ne hle fun he => ?_
        obtain ⟨hne, hsome⟩ := hst
        obtain ⟨pts, hpts⟩ := Option.isSome_iff_exists.1 hsome
        obtain ⟨r, rs, hhw⟩ := List.exists_cons_of_ne_nil hne
        subst he
        exact hnone pts r rs hpts hhw
    · rename_i hge
      refine h.move hpc (fun p _ htodo => htodo.imp_right fun hle => ?_) nofun
      rw [hpc] at hle
      exact hge (Nat.lt_of_le_of_lt hle p.isLt)
  | enable => exact h.finish hpc

/-- **Every step keeps the invariant**, with lines that are triggered by an edge if no
interrupt comes at the moment the status is cleared. -/
theorem step (h : TsInv irq s) {n : Nat} (hinv : PollInv irq n s) (htrig : irq.shared = true → irq.trig = .level)
    {op : ComOp Dev} (hop : irq.trig = .edge → op.Apart) : TsInv irq (comStep nd irq s op).2 := by
  cases op with
  | dma op =>
    by_cases hhw : ∃ j desc, op = .hw j desc
    · obtain ⟨j, desc, rfl⟩ := hhw
      exact (h.owe (irqBit EDGX_IRQ_NR_DMA_TX)).setDma fun _ => rfl
    · have hd := h.setDma (txKept_dmaStep nd hinv.tx op fun j desc he => hhw ⟨j, desc, he⟩).ts
      cases op with
      | xmit | deqTx | wake => exact hd
      | hw j desc => exact absurd ⟨j, desc, rfl⟩ hhw
  | receive f => exact (h.owe (irqBit EDGX_IRQ_NR_DMA_RX)).setRest _ s.stamped s.napi s.poll s.ends
  | stamp ptid r => exact h.stamp ptid r
  | raise bits => exact h.setIrqs (fun _ _ hw => hw.raise bits) fun hh => hh.raise bits
  | isrEnter v => exact h.isrEnter htrig v
  | isrStep v again => exact h.isrStep v again
  | poll budget =>
    dsimp only [comStep, ComState.startPoll]
    split
    · exact h.setRest s.rx s.stamped s.napi _ s.ends
    · exact h
  | pollStep cpu env again goOn =>
    dsimp only [comStep]
    split
    · exact h
    · exact h.pollAt hinv _ cpu env again goOn
  | pollEnd cpu =>
    dsimp only [comStep, ComState.pollEnd]
    split
    · exact h
    · exact (h.enable _).setRest s.rx s.stamped s.napi s.poll _
  | work => exact h.startWork
  | workStep curSec again =>
    dsimp only [comStep]
    split
    · exact h
    · rename_i pc hpc
      exact h.workAt hpc curSec hop

omit [DecidableEq Dev] in
theorem start (d : EdgxComDma Dev) (q : EdgxDmaQueue Unit) (irqs : Irqs 16) : TsInv irq (comStart d q irqs) where
  isr _ := True.intro
  watched _ hst := absurd rfl hst.1
  heard := by
    obtain ⟨hmask, hstat⟩ := edgxIrqInit_bit irqs EDGX_IRQ_NR_TS_TX (by decide)
    exact Irqs.heard_of_clear hmask fun _ => hstat

end TsInv

/-! ## Rest -/

/-- Nobody is at work for the timestamps or going to be. -/
structure TsResting (irq : EdgxBrIrq) (s : ComState Dev) : Prop where
  pending : s.work.pending = false
  running : s.work.running = none
  isr : ∀ v, s.isr v = []
  due : s.irqs.due.getLsbD EDGX_IRQ_NR_TS_TX = false
  quiet : ∀ v, ¬ Called irq s.irqs v

end Work

/-! ## A run -/

section Run

variable {Dev : Type*} [DecidableEq Dev] {nd : NetDevs Dev} {irq : EdgxBrIrq}

/-- The step is of the handler of `v`. -/
def ComOp.Handles (v : Nat) : ComOp Dev → Prop
  | .isrEnter w | .isrStep w _ => w = v
  | _ => False

/-- A handler is entered and goes on by its own steps only. -/
theorem comStep_isr (s : ComState Dev) {op : ComOp Dev} {v : Nat} (hop : ¬ op.Handles v) :
    (comStep nd irq s op).2.isr v = s.isr v := by
  cases op with
  | dma | receive | stamp | raise => rfl
  | isrEnter w =>
    dsimp only [comStep, ComState.isrEnter]
    split
    · exact Function.update_of_ne (Ne.symm hop) _ _
    · rfl
  | isrStep w again =>
    dsimp only [comStep, ComState.isrStep]
    split
    · rfl
    all_goals exact Function.update_of_ne (Ne.symm hop) _ _
  | poll | work =>
    dsimp only [comStep, ComState.startPoll, ComState.startWork]
    split <;> rfl
  | pollStep cpu env again goOn =>
    dsimp only [comStep, ComState.pollAt]
    repeat' split
    all_goals rfl
  | pollEnd cpu =>
    dsimp only [comStep, ComState.pollEnd]
    split <;> rfl
  | workStep curSec again =>
    dsimp only [comStep, ComState.workAt, ComState.findTx]
    repeat' split
    all_goals rfl

theorem after_isr (s : ComState Dev) {ops : List (ComOp Dev)} {v : Nat} (hops : ∀ op ∈ ops, ¬ op.Handles v) :
    (after (comStep nd irq) s ops).isr v = s.isr v := by
  induction ops generalizing s with
  | nil => rfl
  | cons op ops ih =>
    obtain ⟨hop, hops⟩ := List.forall_mem_cons.1 hops
    exact (ih _ hops).trans (comStep_isr s hop)

end Run

section Inputs

def stampPort : Fin EDGX_BR_MAX_PORTS := ⟨0, maxPorts_pos⟩

def exampleStamp : TsRegs := ⟨0, 0, 0, 0⟩

/-- A port is timestamped. -/
def stampTs : EdgxComTs (Skb (Fin 3)) := Function.update (fun _ => none) stampPort (some {})

/-- A timestamp comes, its handler queues the work, and the work runs to its end. -/
def stampOps (again : BitVec 16) : List (ComOp (Fin 3)) :=
  [.stamp stampPort exampleStamp, .raise 1, .isrEnter 0, .isrStep 0 0, .isrStep 0 0, .work, .workStep 0 again] ++
    List.replicate (EDGX_BR_MAX_PORTS + 3) (.workStep 0 0)

def stampRun (ops : List (ComOp (Fin 3))) : ComState (Fin 3) :=
  after (comStep threeDevs ⟨.edge, false⟩) (comStart { realNumTxQueues := 1, qIdxBrpt := 0, ts := stampTs } filledRing {}) ops

theorem stampOps_handles (again : BitVec 16) {op : ComOp (Fin 3)} (hop : op ∈ stampOps again) {v : Nat}
    (hv : op.Handles v) : v = 0 := by
  obtain hop | hop := List.mem_append.1 hop
  · simp only [List.mem_cons, List.not_mem_nil, or_false] at hop
    obtain rfl | rfl | rfl | rfl | rfl | rfl | rfl := hop <;> first | exact hv.elim | exact hv.symm
  · rw [List.eq_of_mem_replicate hop] at hv
    exact hv.elim

theorem stampRun_isr {ops : List (ComOp (Fin 3))} (hops : ∀ op ∈ ops, ∀ v, op.Handles v → v = 0)
    (hzero : (stampRun ops).isr 0 = []) (v : Nat) : (stampRun ops).isr v = [] := by
  by_cases hv : v = 0
  · rw [hv]
    exact hzero
  · exact after_isr _ fun op hop hhandles => hv (hops op hop v hhandles)

/-- An interrupt that comes at the moment the status is cleared leaves its bit set, and
the timestamp that comes next makes no edge. It stays in the hardware, at rest. -/
theorem stamps_left :
    let s := stampRun (stampOps 1 ++ [.stamp stampPort exampleStamp, .raise 1])
    TsResting ⟨.edge, false⟩ s ∧ s.hwTs stampPort ≠ [] := by
  have hcalls : (stampRun (stampOps 1 ++ [.stamp stampPort exampleStamp, .raise 1])).irqs.latched = 0 := by decide +kernel
  refine ⟨⟨by decide +kernel, by decide +kernel, stampRun_isr (fun op hop v hv => ?_) (by decide +kernel),
    by decide +kernel, fun v hcalled => hcalled.2 ?_⟩, ?_⟩
  · obtain hop | hop := List.mem_append.1 hop
    · exact stampOps_handles 1 hop hv
    · simp only [List.mem_cons, List.not_mem_nil, or_false] at hop
      obtain rfl | rfl := hop <;> exact hv.elim
  · exact (congrArg (· &&& vecBits ⟨.edge, false⟩ v) hcalls).trans BitVec.zero_and
  · intro hnil
    have hlen : ((stampRun (stampOps 1 ++ [.stamp stampPort exampleStamp, .raise 1])).hwTs stampPort).length = 1 := by
      decide +kernel
    rw [hnil] at hlen
    exact nomatch hlen

end Inputs

end TsnSwitch.Com
