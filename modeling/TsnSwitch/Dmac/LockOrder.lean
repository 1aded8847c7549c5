/-
The three locks of the VLAN tables and the dynamic address table. The kernel
adds and removes the VLANs of a port with RTNL held, and the driver then takes
the VID-to-FID lock; where the driver itself notifies the bridge, it takes RTNL
last, after the VID-to-FID lock and the lock of the address table.

The tasks are any number of callers and the synchronisation worker. A cycle of
waiting tasks is always one of two kinds (`deadlock_iff_knot`), and
`noDeadlock_iff` says which runs come to one.
-/
import TsnSwitch.BrVlan.Represent
import TsnSwitch.Dmac.Table
import TsnSwitch.Lib.Locks

namespace TsnSwitch.Dmac

open Lib BrVlan

inductive Lock where
  | rtnl
  | v2f
  | dmac
  deriving DecidableEq

/-- What is done between the locks. -/
inductive LockWork where
  /-- The checks before the VID-to-FID lock. -/
  | enter (op : VlanOp)
  | change (op : VlanOp)
  /-- The loop of `edgx_brfdb_update_vid2fid`. -/
  | update (vid : BitVec 16) (fidOld : Nat)
  | read (reads : List DmacRead)
  | notify

abbrev LockTodo := List (Act Tid Lock LockWork)

abbrev LockSys := Sys Tid Lock SyncState LockWork

/-- A call that returns before it takes the VID-to-FID lock. -/
def refused (par : Params) (s : EdgxBrVlan) : VlanOp → Bool
  | .addPt _ untagged pvid _ => addPtRefused par s untagged pvid
  | .setVid2fid _ fid => fid.toNat ≥ par.maxFids
  | _ => false

def changeTodo (op : VlanOp) : LockTodo := [.lock .v2f, .body (.change op), .unlock .v2f]

def updateTodo (vid : BitVec 16) (fidOld : Nat) : LockTodo :=
  [.lock .dmac, .lock .rtnl, .body (.update vid fidOld), .unlock .rtnl, .unlock .dmac]

def lockExec (par : Params) (d : SyncState) : LockWork → Option (SyncState × LockTodo)
  | .enter op => some (d, if refused par d.vlan op then [] else changeTodo op)
  | .change op =>
    match vlanStep par d.vlan op with
    | (.oops, _) => none
    | (.ret .., vlan) =>
      some ({ d with vlan },
        match vid2fidUpdate par d.vlan op with
        | some (vid, fidOld) => updateTodo vid fidOld
        | none => [])
  | .update vid fidOld => some ({ d with sent := d.sent ++ edgxBrfdbUpdateVid2fid par d.dmac vid fidOld }, [])
  | .read reads => some ({ d with dmac := readRound d.dmac reads }, [])
  | .notify =>
    let (dmac, sent) := notifyRound par d.vlan d.dmac
    some ({ d with dmac, sent := d.sent ++ sent }, [])

/-! ## The tasks -/

/-- A VLAN object of a port that the kernel adds or removes. -/
inductive PtObj where
  | add (vid : BitVec 16) (untagged pvid : Bool) (p : Port)
  | del (vid : BitVec 16) (p : Port)

def PtObj.op : PtObj → VlanOp
  | .add vid untagged pvid p => .addPt vid untagged pvid p
  | .del vid p => .delPt vid p

def objTodo (objs : List PtObj) : LockTodo := objs.map fun o => .body (.enter o.op)

/-- The kernel holds RTNL over all objects of a request. -/
def switchdevTodo (objs : List PtObj) : LockTodo := .lock .rtnl :: (objTodo objs ++ [.unlock .rtnl])

def vid2fidTodo (vid fid : BitVec 16) : LockTodo := [.body (.enter (.setVid2fid vid fid))]

/-- `edgx_dmac_sync_work`. -/
def syncTodo (reads : List DmacRead) : LockTodo :=
  [.lock .dmac, .body (.read reads), .unlock .dmac, .lock .v2f, .lock .dmac, .lock .rtnl, .body .notify, .unlock .rtnl,
    .unlock .v2f, .unlock .dmac]

inductive LockOp where
  | switchdev (n : Nat) (objs : List PtObj)
  | vid2fid (n : Nat) (vid fid : BitVec 16)
  | sync (reads : List DmacRead)
  | run (t : Tid)

def lockStep (par : Params) (s : LockSys) : LockOp → Unit × LockSys
  | .switchdev n objs => ((), s.start (.user n) (switchdevTodo objs))
  | .vid2fid n vid fid => ((), s.start (.user n) (vid2fidTodo vid fid))
  | .sync reads => ((), s.start .worker (syncTodo reads))
  | .run t => ((), s.run (lockExec par) t)

def lockInit (par : Params) (hw : VlanHw) : LockSys := { data := { vlan := edgxBrInitVlan par hw } }

/-- Locks do not come to be taken in a circle. What goes on from the lock of the
address table to RTNL, with the VID-to-FID lock held, does not get there while
RTNL is its own or that of a task that waits for the VID-to-FID lock. An
addition or removal that is not refused does not come to the VID-to-FID lock
while the task that has it waits for RTNL. -/
def OrderKept (par : Params) (s : LockSys) : LockOp → Prop
  | .run t =>
    (∀ as, s.todo t = .lock .dmac :: .lock .rtnl :: as → s.holder .dmac = none →
      ∀ u, s.holder .rtnl = some u → u ≠ t ∧ s.wants u ≠ some .v2f) ∧
    ∀ op as, s.todo t = .body (.enter op) :: as → refused par s.data.vlan op = false → s.holder .rtnl = some t →
      ∀ u, s.holder .v2f = some u → s.wants u ≠ some .rtnl
  | _ => True

/-! ## What is held where -/

/-- What may be held before each action, and which lock may be next after it. -/
def Ordered : Set Lock → LockTodo → Prop
  | h, [] => .rtnl ∉ h ∧ .v2f ∉ h ∧ .dmac ∉ h
  | h, .lock .rtnl :: as =>
    (.rtnl ∉ h ∧ .v2f ∉ h ∧ .dmac ∉ h ∨ .v2f ∈ h ∧ .dmac ∈ h) ∧ Act.next as = none ∧
      (.rtnl ∉ h → Ordered (insert .rtnl h) as)
  | h, .lock .v2f :: as => .v2f ∉ h ∧ .dmac ∉ h ∧ Act.next as ≠ some .rtnl ∧ Ordered (insert .v2f h) as
  | h, .lock .dmac :: as => .dmac ∉ h ∧ (.rtnl ∈ h → .v2f ∈ h) ∧ Ordered (insert .dmac h) as
  | h, .unlock l :: as =>
    Act.next as ≠ some .rtnl ∧ (Act.next as = some .v2f → .rtnl ∉ h) ∧ Ordered (h \ {l}) as
  | h, .body (.enter _) :: as => .v2f ∉ h ∧ .dmac ∉ h ∧ Act.next as = none ∧ Ordered h as
  | h, .body (.change _) :: as => .v2f ∈ h ∧ .dmac ∉ h ∧ Act.next as = none ∧ Ordered h as
  | h, .body _ :: as => Act.next as = none ∧ Ordered h as
  | _, .await _ :: _ => False

theorem insert_diff_self {l : Lock} {h : Set Lock} (hl : l ∉ h) : insert l h \ {l} = h := by
  rw [Set.insert_sdiff_of_mem _ (Set.mem_singleton l), Set.sdiff_singleton_eq_self hl]

theorem ordered_changeTodo {h : Set Lock} {as : LockTodo} (op : VlanOp) (hv : .v2f ∉ h) (hd : .dmac ∉ h)
    (hn : Act.next as = none) (hs : Ordered h as) : Ordered h (changeTodo op ++ as) := by
  have hd' : .dmac ∉ insert Lock.v2f h := by simpa using hd
  simp only [changeTodo, List.cons_append, List.nil_append]
  refine ⟨hv, hd, (nomatch ·), Set.mem_insert .., hd', rfl, ?_, ?_, ?_⟩
  · simp [hn]
  · simp [hn]
  · rw [insert_diff_self hv]
    exact hs

theorem ordered_updateTodo {h : Set Lock} {as : LockTodo} (vid : BitVec 16) (fidOld : Nat) (hv : .v2f ∈ h)
    (hd : .dmac ∉ h) (hn : Act.next as = none) (hs : Ordered h as) : Ordered h (updateTodo vid fidOld ++ as) := by
  simp only [updateTodo, List.cons_append, List.nil_append]
  refine ⟨hd, fun _ => hv, .inr ⟨Set.mem_insert_of_mem _ hv, Set.mem_insert ..⟩, rfl, fun hr => ?_⟩
  refine ⟨rfl, (nomatch ·), (nomatch ·), ?_⟩
  rw [insert_diff_self hr]
  refine ⟨?_, ?_, ?_⟩
  · simp [hn]
  · simp [hn]
  · rw [insert_diff_self hd]
    exact hs

theorem lockExec_ordered (par : Params) : Keeps (lockExec par) fun _ => Ordered where
  lock := fun _ h l as ho hl => by
    cases l with
    | rtnl => exact ho.2.2 hl
    | v2f => exact ho.2.2.2
    | dmac => exact ho.2.2
  unlock := fun _ h l as ho => ho.2.2
  body := fun _ h b as data data' more ho hb => by
    cases b with
    | enter op =>
      obtain ⟨hv, hd, hn, ho⟩ := ho
      obtain ⟨-, rfl⟩ := Prod.mk.inj (Option.some.inj hb)
      split
      · exact ho
      · exact ordered_changeTodo op hv hd hn ho
    | change op =>
      obtain ⟨hv, hd, hn, ho⟩ := ho
      simp only [lockExec] at hb
      split at hb
      · exact nomatch hb
      · obtain ⟨-, rfl⟩ := Prod.mk.inj (Option.some.inj hb)
        split
        · exact ordered_updateTodo _ _ hv hd hn ho
        · exact ho
    | update vid fidOld =>
      obtain ⟨-, rfl⟩ := Prod.mk.inj (Option.some.inj hb)
      exact ho.2
    | read reads =>
      obtain ⟨-, rfl⟩ := Prod.mk.inj (Option.some.inj hb)
      exact ho.2
    | notify =>
      obtain ⟨-, rfl⟩ := Prod.mk.inj (Option.some.inj hb)
      exact ho.2
  await := fun _ h u as ho => ho.elim

theorem ordered_objTodo (objs : List PtObj) : Ordered {.rtnl} (objTodo objs ++ [.unlock .rtnl]) := by
  induction objs with
  | nil => simp [objTodo, Ordered, Act.next]
  | cons o os ih =>
    have hn : Act.next (objTodo os ++ [.unlock .rtnl]) = none := by cases os <;> rfl
    exact ⟨by simp, by simp, hn, ih⟩

theorem ordered_switchdev (objs : List PtObj) : Ordered ∅ (switchdevTodo objs) := by
  have hn : Act.next (objTodo objs ++ [.unlock .rtnl]) = none := by cases objs <;> rfl
  refine ⟨.inl (by simp), hn, fun _ => ?_⟩
  rw [insert_empty_eq]
  exact ordered_objTodo objs

theorem ordered_vid2fid (vid fid : BitVec 16) : Ordered ∅ (vid2fidTodo vid fid) := by
  simp [vid2fidTodo, Ordered, Act.next]

theorem ordered_sync (reads : List DmacRead) : Ordered ∅ (syncTodo reads) := by
  simp [syncTodo, Ordered, Act.next]

theorem eq_empty_of_ordered {h : Set Lock} (ho : Ordered h []) : h = ∅ :=
  Set.eq_empty_iff_forall_notMem.2 fun l => by cases l <;> simp [ho.1, ho.2.1, ho.2.2]

def LockInv (s : LockSys) : Prop := ∀ t, Ordered (s.held t) (s.todo t)

theorem LockInv.start {s : LockSys} (h : LockInv s) {t : Tid} {as : LockTodo} (ho : Ordered ∅ as) :
    LockInv (s.start t as) :=
  Keeps.start h fun hend => by rw [eq_empty_of_ordered hend]; exact ho

theorem LockInv.step {par : Params} {s : LockSys} (h : LockInv s) (op : LockOp) : LockInv (lockStep par s op).2 := by
  cases op with
  | switchdev n objs => exact h.start (ordered_switchdev objs)
  | vid2fid n vid fid => exact h.start (ordered_vid2fid vid fid)
  | sync reads => exact h.start (ordered_sync reads)
  | run t => exact (lockExec_ordered par).run h t

theorem lockInit_inv (par : Params) (hw : VlanHw) : LockInv (lockInit par hw) := fun _ =>
  ⟨(nomatch ·), (nomatch ·), (nomatch ·)⟩

/-! ## Cycles -/

/-- A task waits for RTNL with the VID-to-FID lock, and RTNL is its own or that
of a task that waits for the VID-to-FID lock. -/
def Knot (s : LockSys) : Prop :=
  ∃ t u, s.wants t = some .rtnl ∧ s.holder .v2f = some t ∧ s.holder .rtnl = some u ∧ (u = t ∨ s.wants u = some .v2f)

theorem lock_of_next {l : Lock} {todo : LockTodo} (h : Act.next todo = some l) : ∃ as, todo = .lock l :: as := by
  unfold Act.next at h
  split at h
  · rename_i l' as
    exact ⟨as, by rw [Option.some.inj h]⟩
  · exact nomatch h

theorem blocker_of_wants {s : LockSys} {t u : Tid} {l : Lock} (h : s.wants t = some l) (hl : s.holder l = some u) :
    s.blocker t = some u := by
  obtain ⟨as, ht⟩ := lock_of_next h
  unfold Sys.blocker
  rw [ht]
  exact hl

namespace LockInv

variable {s : LockSys} (h : LockInv s) {t : Tid}
include h

/-- Tasks wait for locks only. -/
theorem wants_of_blocker {u : Tid} (hb : s.blocker t = some u) : ∃ l, s.wants t = some l ∧ s.holder l = some u := by
  have ho := h t
  unfold Sys.blocker at hb
  split at hb
  · rename_i l as ht
    exact ⟨l, by rw [Sys.wants, ht]; rfl, hb⟩
  · rename_i v as ht
    rw [ht] at ho
    exact ho.elim
  · exact nomatch hb

/-- What a task that waits may hold. -/
theorem held_of_wants {l : Lock} (hw : s.wants t = some l) :
    match l with
    | .rtnl => (∀ l, s.holder l ≠ some t) ∨ s.holder .v2f = some t ∧ s.holder .dmac = some t
    | .v2f => s.holder .v2f ≠ some t ∧ s.holder .dmac ≠ some t
    | .dmac => s.holder .dmac ≠ some t ∧ (s.holder .rtnl = some t → s.holder .v2f = some t) := by
  obtain ⟨as, ht⟩ := lock_of_next hw
  have ho := h t
  rw [ht] at ho
  cases l with
  | rtnl =>
    refine ho.1.imp_left fun ⟨hr, hv, hd⟩ l => ?_
    cases l
    · exact hr
    · exact hv
    · exact hd
  | v2f => exact ⟨ho.1, ho.2.1⟩
  | dmac => exact ⟨ho.1, ho.2.1⟩

/-- A task on a cycle waits for one that is on it, and has a lock itself. -/
theorem of_cycle (hc : Relation.TransGen (fun t u => s.blocker t = some u) t t) :
    (∃ l u, s.wants t = some l ∧ s.holder l = some u ∧ Relation.TransGen (fun t u => s.blocker t = some u) u u) ∧
    ∃ l, s.holder l = some t := by
  obtain ⟨⟨u, htu, hu⟩, v, hvt, -⟩ := cycle_step hc
  obtain ⟨l, hw, hl⟩ := h.wants_of_blocker htu
  obtain ⟨l', -, hl'⟩ := h.wants_of_blocker hvt
  exact ⟨⟨l, u, hw, hl, hu⟩, l', hl'⟩

theorem wants_rtnl_of_dmac (hc : Relation.TransGen (fun t u => s.blocker t = some u) t t) (hd : s.holder .dmac = some t) :
    s.wants t = some .rtnl := by
  obtain ⟨⟨l, u, hw, -, -⟩, -⟩ := h.of_cycle hc
  have hheld := h.held_of_wants hw
  cases l with
  | rtnl => exact hw
  | v2f => exact absurd hd hheld.2
  | dmac => exact absurd hd hheld.1

theorem wants_rtnl_of_cycle (hc : Relation.TransGen (fun t u => s.blocker t = some u) t t) :
    ∃ u, s.wants u = some .rtnl ∧ Relation.TransGen (fun t u => s.blocker t = some u) u u := by
  obtain ⟨⟨l, u, hw, hl, hu⟩, -⟩ := h.of_cycle hc
  cases l with
  | rtnl => exact ⟨t, hw, hc⟩
  | dmac => exact ⟨u, h.wants_rtnl_of_dmac hu hl, hu⟩
  | v2f =>
    obtain ⟨⟨l', v, hw', hl', hv⟩, -⟩ := h.of_cycle hu
    have hheld := h.held_of_wants hw'
    cases l' with
    | rtnl => exact ⟨u, hw', hu⟩
    | v2f => exact absurd hl hheld.1
    | dmac => exact ⟨v, h.wants_rtnl_of_dmac hv hl', hv⟩

/-- **Every cycle is a knot.** -/
theorem deadlock_iff_knot : s.Deadlock ↔ Knot s := by
  constructor
  · rintro ⟨t₀, hc₀⟩
    obtain ⟨t, hw, hc⟩ := h.wants_rtnl_of_cycle hc₀
    obtain ⟨⟨l, u, hw', hl, hu⟩, l₀, hl₀⟩ := h.of_cycle hc
    obtain rfl := Option.some.inj (hw'.symm.trans hw)
    have hv : s.holder .v2f = some t := by
      rcases h.held_of_wants hw with hnone | ⟨hv, -⟩
      · exact absurd hl₀ (hnone l₀)
      · exact hv
    refine ⟨t, u, hw, hv, hl, ?_⟩
    obtain ⟨⟨l', v, hu', -, -⟩, -⟩ := h.of_cycle hu
    have hheld := h.held_of_wants hu'
    cases l' with
    | v2f => exact .inr hu'
    | rtnl =>
      rcases hheld with hnone | ⟨hv', -⟩
      · exact absurd hl (hnone .rtnl)
      · exact .inl (Option.some.inj (hv'.symm.trans hv))
    | dmac => exact .inl (Option.some.inj ((hheld.2 hl).symm.trans hv))
  · rintro ⟨t, u, hw, hv, hr, hu⟩
    have htu := blocker_of_wants hw hr
    rcases hu with rfl | hu
    · exact ⟨u, .single htu⟩
    · exact ⟨t, .tail (.single htu) (blocker_of_wants hu hv)⟩

end LockInv

/-! ## Runs -/

variable {s : LockSys}

/-- What a step leaves a task waiting for. -/
theorem wants_run_cases (h : LockInv s) (par : Params) (t : Tid) :
    s.run (lockExec par) t = s ∨
    (s.run (lockExec par) t).wants t = none ∨
    (s.run (lockExec par) t).wants t = some .dmac ∨
    ((s.run (lockExec par) t).wants t = some .v2f ∧ (s.run (lockExec par) t).holder .rtnl ≠ some t) ∨
    (∃ as, s.todo t = .lock .dmac :: .lock .rtnl :: as ∧ s.holder .dmac = none) ∨
    ∃ op as, s.todo t = .body (.enter op) :: as ∧ refused par s.data.vlan op = false := by
  have ho := h t
  rcases ht : s.todo t with _ | ⟨a, as⟩
  · exact .inl (run_nil ht)
  rw [ht] at ho
  cases a with
  | lock l =>
    by_cases hl : s.holder l = none
    · have hwants : (s.run (lockExec par) t).wants t = Act.next as := congrArg Act.next (todo_lock ht hl)
      rw [hwants]
      have hafter := (lockExec_ordered par).lock t _ l as ho fun hm => nomatch hl.symm.trans hm
      rcases hn : Act.next as with _ | l'
      · exact .inr (.inl rfl)
      obtain ⟨bs, rfl⟩ : ∃ bs, as = .lock l' :: bs := lock_of_next hn
      cases l with
      | rtnl => exact nomatch ho.2.1
      | v2f =>
        cases l' with
        | rtnl => exact absurd rfl ho.2.2.1
        | v2f => exact absurd (Set.mem_insert ..) hafter.1
        | dmac => exact .inr (.inr (.inl rfl))
      | dmac =>
        cases l' with
        | rtnl => exact .inr (.inr (.inr (.inr (.inl ⟨bs, rfl, hl⟩))))
        | v2f => exact absurd (Set.mem_insert ..) hafter.2.1
        | dmac => exact .inr (.inr (.inl rfl))
    · exact .inl (run_locked ht hl)
  | unlock l =>
    have hwants : (s.run (lockExec par) t).wants t = Act.next as := congrArg Act.next (todo_unlock ht)
    rw [hwants]
    obtain ⟨hr, hv, -⟩ := ho
    rcases hn : Act.next as with _ | l'
    · exact .inr (.inl rfl)
    cases l' with
    | rtnl => exact absurd hn hr
    | v2f =>
      refine .inr (.inr (.inr (.inl ⟨rfl, fun hm => hv hn ?_⟩)))
      have hheld : Lock.rtnl ∈ (s.run (lockExec par) t).held t := hm
      rw [held_unlock ht] at hheld
      exact hheld.1
    | dmac => exact .inr (.inr (.inl rfl))
  | body b =>
    rcases hb : lockExec par s.data b with _ | ⟨data, more⟩
    · exact .inl (run_stopped ht hb)
    have hwants : (s.run (lockExec par) t).wants t = Act.next (more ++ as) := congrArg Act.next (todo_body ht hb)
    rw [hwants]
    cases b with
    | enter op =>
      cases hr : refused par s.data.vlan op with
      | false => exact .inr (.inr (.inr (.inr (.inr ⟨op, as, rfl, hr⟩))))
      | true =>
        obtain ⟨-, rfl⟩ := Prod.mk.inj (Option.some.inj hb)
        rw [hr]
        exact .inr (.inl ho.2.2.1)
    | change op =>
      simp only [lockExec] at hb
      split at hb
      · exact nomatch hb
      · obtain ⟨-, rfl⟩ := Prod.mk.inj (Option.some.inj hb)
        split
        · exact .inr (.inr (.inl rfl))
        · exact .inr (.inl ho.2.2.1)
    | update vid fidOld =>
      obtain ⟨-, rfl⟩ := Prod.mk.inj (Option.some.inj hb)
      exact .inr (.inl ho.1)
    | read reads =>
      obtain ⟨-, rfl⟩ := Prod.mk.inj (Option.some.inj hb)
      exact .inr (.inl ho.1)
    | notify =>
      obtain ⟨-, rfl⟩ := Prod.mk.inj (Option.some.inj hb)
      exact .inr (.inl ho.1)
  | await u => exact ho.elim

/-- A task that has passed its checks comes to the VID-to-FID lock. -/
theorem run_enter (par : Params) {t : Tid} {op : VlanOp} {as : LockTodo} (ht : s.todo t = .body (.enter op) :: as)
    (hr : refused par s.data.vlan op = false) :
    (s.run (lockExec par) t).wants t = some .v2f ∧ (s.run (lockExec par) t).holder = s.holder := by
  have hexec : lockExec par s.data (.enter op) = some (s.data, changeTodo op) := by
    simp only [lockExec, hr, Bool.false_eq_true, if_false]
  exact ⟨congrArg Act.next (todo_body ht hexec), by rw [run_body ht hexec]⟩

/-- A task that has got the lock of the address table comes to RTNL. -/
theorem run_dmac (par : Params) {t : Tid} {as : LockTodo} (ht : s.todo t = .lock .dmac :: .lock .rtnl :: as)
    (hd : s.holder .dmac = none) :
    (s.run (lockExec par) t).wants t = some .rtnl ∧
      ∀ l ≠ Lock.dmac, (s.run (lockExec par) t).holder l = s.holder l := by
  refine ⟨congrArg Act.next (todo_lock ht hd), fun l hl => ?_⟩
  rw [run_lock ht hd]
  exact Function.update_of_ne hl ..

theorem knot_run (h : LockInv s) (par : Params) (hk : ¬ Knot s) (t : Tid) :
    ¬ Knot (s.run (lockExec par) t) ↔ OrderKept par s (.run t) := by
  constructor
  · refine fun hn => ⟨fun as ht hd u hu => ?_, fun op as ht hr hrt u hu hw => ?_⟩
    · obtain ⟨hw, hheld⟩ := run_dmac par ht hd
      have hv : s.holder .v2f = some t := by
        have ho := h t
        rw [ht] at ho
        rcases ho.2.2.1 with ⟨-, -, hno⟩ | ⟨hv, -⟩
        · exact absurd (Set.mem_insert ..) hno
        · rcases hv with he | hv
          · exact nomatch he
          · exact hv
      have hv' : (s.run (lockExec par) t).holder .v2f = some t := (hheld .v2f (nomatch ·)).trans hv
      have hu' : (s.run (lockExec par) t).holder .rtnl = some u := (hheld .rtnl (nomatch ·)).trans hu
      by_cases hut : u = t
      · exact absurd ⟨t, u, hw, hv', hu', .inl hut⟩ hn
      · refine ⟨hut, fun hwu => hn ⟨t, u, hw, hv', hu', .inr ?_⟩⟩
        rw [wants_run s hut]
        exact hwu
    · obtain ⟨hwt, hheld⟩ := run_enter par ht hr
      have hut : u ≠ t := by
        rintro rfl
        rw [Sys.wants, ht] at hw
        exact nomatch hw
      refine hn ⟨u, t, ?_, ?_, ?_, .inr hwt⟩
      · rw [wants_run s hut]
        exact hw
      · rw [hheld]
        exact hu
      · rw [hheld]
        exact hrt
  · rintro ⟨hdmac, henter⟩ ⟨a, b, hw, hv, hr, hb⟩
    have hcases := wants_run_cases h par t
    rcases eq_or_ne a t with rfl | hat
    · rcases hcases with he | hnone | hd | ⟨hv', -⟩ | ⟨as, ht, hd⟩ | ⟨op, as, ht, href⟩
      · rw [he] at hw hv hr hb
        exact hk ⟨a, b, hw, hv, hr, hb⟩
      · exact nomatch hnone.symm.trans hw
      · exact nomatch hd.symm.trans hw
      · exact nomatch hv'.symm.trans hw
      · obtain ⟨-, hheld⟩ := run_dmac par ht hd
        rw [hheld .rtnl (nomatch ·)] at hr
        obtain ⟨hba, hwb⟩ := hdmac as ht hd b hr
        rw [wants_run s hba] at hb
        exact hb.elim hba hwb
      · exact nomatch (run_enter par ht href).1.symm.trans hw
    · rw [wants_run s hat] at hw
      have hv' := ((run_frame _ s t).2 .v2f a hat).1 hv
      rcases eq_or_ne b t with rfl | hbt
      · have hb' := hb.resolve_left hat.symm
        rcases hcases with he | hnone | hd | ⟨-, hno⟩ | ⟨as, ht, hd⟩ | ⟨op, as, ht, href⟩
        · rw [he] at hr hb'
          exact hk ⟨a, b, hw, hv', hr, .inr hb'⟩
        · exact nomatch hnone.symm.trans hb'
        · exact nomatch hd.symm.trans hb'
        · exact hno hr
        · exact nomatch (run_dmac par ht hd).1.symm.trans hb'
        · rw [(run_enter par ht href).2] at hr
          exact henter op as ht href hr a hv' hw
      · have hr' := ((run_frame _ s t).2 .rtnl b hbt).1 hr
        rw [wants_run s hbt] at hb
        exact hk ⟨a, b, hw, hv', hr', hb⟩

/-- A task that starts holds nothing. -/
theorem knot_start (h : LockInv s) (hk : ¬ Knot s) (t : Tid) (as : LockTodo) : ¬ Knot (s.start t as) := by
  by_cases ht : s.todo t = []
  · rw [start_idle ht]
    rintro ⟨a, b, hw, hv, hr, hb⟩
    have ho := h t
    rw [ht] at ho
    have hat : a ≠ t := fun he => ho.2.1 (he ▸ hv)
    have hbt : b ≠ t := fun he => ho.1 (he ▸ hr)
    simp only [Sys.wants, Function.update_of_ne hat, Function.update_of_ne hbt] at hw hb
    exact hk ⟨a, b, hw, hv, hr, hb⟩
  · rw [start_busy ht]
    exact hk

theorem deadlock_step (par : Params) (op : LockOp) (h : LockInv s) (hd : ¬ s.Deadlock) :
    ¬ (lockStep par s op).2.Deadlock ↔ OrderKept par s op := by
  rw [(h.step op).deadlock_iff_knot]
  rw [h.deadlock_iff_knot] at hd
  cases op with
  | switchdev n objs => exact iff_of_true (knot_start h hd _ _) True.intro
  | vid2fid n vid fid => exact iff_of_true (knot_start h hd _ _) True.intro
  | sync reads => exact iff_of_true (knot_start h hd _ _) True.intro
  | run t => exact knot_run h par hd t

/-- **The lock order: no state of a run has a cycle of waiting tasks exactly if
each step keeps the order.** -/
theorem noDeadlock_iff (par : Params) (hw : VlanHw) (ops : List LockOp) :
    (∀ pre suf, ops = pre ++ suf → ¬ (after (lockStep par) (lockInit par hw) pre).Deadlock) ↔
      Guarded (lockStep par) (OrderKept par) (lockInit par hw) ops := by
  refine (and_iff_left fun _ _ => True.intro).symm.trans
    (holds_iff_guarded (I := fun s => ¬ s.Deadlock) (J := LockInv) (G := fun _ => True) (fun s op h => h.step op)
      (fun s op h hd => (and_iff_left True.intro).trans (deadlock_step par op h hd)) (lockInit_inv par hw) ?_ ops)
  rw [(lockInit_inv par hw).deadlock_iff_knot]
  exact fun ⟨t, u, ht, _⟩ => nomatch ht

/-- A deadlock lasts: RTNL stays taken, and with it all configuration of the
kernel's network. -/
theorem deadlock_forever (par : Params) (h : s.Deadlock) (ops : List LockOp) :
    (after (lockStep par) s ops).Deadlock := by
  refine inv_after ops h fun s op h => ?_
  cases op with
  | switchdev n objs => exact h.start ..
  | vid2fid n vid fid => exact h.start ..
  | sync reads => exact h.start ..
  | run t => exact h.run ..

/-- The worker comes to RTNL while a port is added to VLAN 5. -/
def crossedRun : List LockOp :=
  .sync [] :: List.replicate 5 (.run .worker) ++
    [.switchdev 0 [.add 5 true true ⟨0, by decide⟩], .run (.user 0), .run (.user 0)]

theorem not_noDeadlock_crossedRun :
    ¬ ∀ pre suf, crossedRun = pre ++ suf → ¬ (after (lockStep fourVlans) (lockInit fourVlans resetHw) pre).Deadlock := by
  refine fun h => h crossedRun [] (List.append_nil _).symm ?_
  have hworker : (after (lockStep fourVlans) (lockInit fourVlans resetHw) crossedRun).blocker .worker =
      some (.user 0) := by decide +kernel
  have huser : (after (lockStep fourVlans) (lockInit fourVlans resetHw) crossedRun).blocker (.user 0) =
      some .worker := by decide +kernel
  exact ⟨.worker, .tail (.single hworker) huser⟩

end TsnSwitch.Dmac
