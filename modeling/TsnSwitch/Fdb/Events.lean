/-
Forwarding entries of the bridge (edge_port.c). The bridge tells of its entries in
atomic context: an event is copied and queued, and a work item takes the events out
one after the other and writes the table. A port may have left the bridge in the
meantime, and then its event is dropped.

The driver is a map from addresses and VLAN ids to ports and a queue of events
(`switchdev_refines`), and when the queue is empty the map is what the bridge asked
for, if no port left before its events (`table_is_asked`).
-/
import TsnSwitch.Fdb.Static

namespace TsnSwitch.Fdb

open Lib

abbrev Port := Fin EDGX_BR_MAX_PORTS

inductive SwitchdevEvent where
  | portAttrSet
  | fdbAddToDevice
  | fdbDelToDevice
  | other
  deriving DecidableEq

/-- `struct switchdev_notifier_fdb_info`. -/
structure FdbInfo where
  addr : Mac
  vid : BitVec 16
  addedByUser : Bool

/-- What the bridge wants of the table. -/
inductive FdbWhat where
  | add
  | del
  deriving DecidableEq

/-- `struct edgx_switchdev_event_work`, with its copy of the address. -/
structure EventWork where
  what : FdbWhat
  info : FdbInfo
  pt : Port

/-- The driver and what it holds: the works and addresses that are allocated, and the
references on the devices. -/
structure Switchdev where
  fdb : Brfdb
  /-- `is_bridged`. -/
  bridged : Port → Bool := fun _ => false
  works : List EventWork := []
  /-- The bridge is told that the entry is in the table. -/
  offloaded : List (Port × Key) := []
  wks : Nat := 0
  addrs : Nat := 0
  refs : Port → Nat := fun _ => 0

inductive NotifyRet where
  | done
  | bad

/-- Whether the work and the address can be allocated. -/
structure EventMem where
  wk : Bool := true
  addr : Bool := true

/-- The device is no port of the switch if it is `none`. -/
def edgxSwitchdevEvent (s : Switchdev) (netdev : Option Port) (event : SwitchdevEvent) (info : FdbInfo) (mem : EventMem) :
    NotifyRet × Switchdev :=
  match netdev with
  | none => (.done, s)
  | some pt =>
    if event = .portAttrSet then (.done, s)
    else if mem.wk = false then (.bad, s)
    else
      let s := { s with wks := s.wks + 1 }
      let queue (what : FdbWhat) :=
        if mem.addr = false then (.bad, { s with wks := s.wks - 1 })
        else
          (.done, { s with
            addrs := s.addrs + 1
            refs := Function.update s.refs pt (s.refs pt + 1)
            works := s.works ++ [⟨what, info, pt⟩] })
      match event with
      | .fdbAddToDevice => queue .add
      | .fdbDelToDevice => queue .del
      | _ => (.done, { s with wks := s.wks - 1 })

/-- What the work does under the lock, with the result of the table. -/
def eventWork (s : Switchdev) (wk : EventWork) : Int × Switchdev :=
  if wk.info.addedByUser = false then (0, s)
  else if s.bridged wk.pt = false then (0, s)
  else
    match wk.what with
    | .add =>
      let (err, fdb) := edgxBrfdbAdd s.fdb wk.info.addr wk.info.vid wk.pt.val
      let s := { s with fdb }
      if err ≠ 0 then (err, s) else (err, { s with offloaded := s.offloaded ++ [(wk.pt, wk.info.addr, wk.info.vid)] })
    | .del =>
      let (err, fdb) := edgxBrfdbDel s.fdb wk.info.addr wk.info.vid wk.pt.val
      (err, { s with fdb })

/-- The oldest event is taken out, and what it holds is released. -/
def edgxSwitchdevEventWorkFn (s : Switchdev) : Int × Switchdev :=
  match s.works with
  | [] => (0, s)
  | wk :: works =>
    let (err, s) := eventWork { s with works } wk
    (err, { s with
      addrs := s.addrs - 1
      wks := s.wks - 1
      refs := Function.update s.refs wk.pt (s.refs wk.pt - 1) })

/-- Entries may also be asked of a port itself, and ports join and leave. -/
inductive SwitchdevOp where
  | event (netdev : Option Port) (event : SwitchdevEvent) (info : FdbInfo) (mem : EventMem)
  | work
  | ptFdb (op : FdbOp)
  | bridge (pt : Port) (bridged : Bool)

inductive SwitchdevRet where
  | notify (ret : NotifyRet)
  | err (err : Int)

def switchdevStep (s : Switchdev) : SwitchdevOp → SwitchdevRet × Switchdev
  | .event netdev event info mem =>
    let (ret, s) := edgxSwitchdevEvent s netdev event info mem
    (.notify ret, s)
  | .work =>
    let (err, s) := edgxSwitchdevEventWorkFn s
    (.err err, s)
  | .ptFdb op =>
    let (err, fdb) := fdbStep s.fdb op
    (.err err, { s with fdb })
  | .bridge pt bridged => (.err 0, { s with bridged := Function.update s.bridged pt bridged })

/-! ## The abstract machine -/

/-- A map and the events that are to come to it. -/
structure Offload where
  map : PortMap := fun _ => ∅
  bridged : Port → Bool := fun _ => false
  queue : List EventWork := []
  offloaded : List (Port × Key) := []

def EventWork.key (wk : EventWork) : Key := (wk.info.addr, wk.info.vid)

def EventWork.op (wk : EventWork) : FdbOp :=
  match wk.what with
  | .add => .add wk.key wk.pt
  | .del => .del wk.key wk.pt

/-- The event as it is queued. -/
def queued : SwitchdevOp × SwitchdevRet → List EventWork
  | (.event (some pt) .fdbAddToDevice info _, .notify .done) => [⟨.add, info, pt⟩]
  | (.event (some pt) .fdbDelToDevice info _, .notify .done) => [⟨.del, info, pt⟩]
  | _ => []

namespace Offload

variable (a : Offload)

/-- An event of the user that finds its port in the bridge comes to the map. -/
def Takes (wk : EventWork) : Prop := wk.info.addedByUser = true ∧ a.bridged wk.pt = true

instance (wk : EventWork) : Decidable (a.Takes wk) := inferInstanceAs (Decidable (_ ∧ _))

def take (wk : EventWork) (err : Int) : Offload :=
  if a.Takes wk then
    { a with
      map := a.map.apply (wk.op, err)
      offloaded := if wk.what = .add ∧ err = 0 then a.offloaded ++ [(wk.pt, wk.key)] else a.offloaded }
  else a

def apply : SwitchdevOp × SwitchdevRet → Offload
  | (.work, .err err) =>
    match a.queue with
    | [] => a
    | wk :: queue => { a with queue }.take wk err
  | (.ptFdb op, .err err) => { a with map := a.map.apply (op, err) }
  | (.bridge pt bridged, _) => { a with bridged := Function.update a.bridged pt bridged }
  | x => { a with queue := a.queue ++ queued x }

end Offload

/-- The driver is the abstract machine, and holds one work, one address and one
reference for each event that is queued. -/
structure Refines (s : Switchdev) (a : Offload) : Prop where
  map : Represents s.fdb a.map
  bridged : s.bridged = a.bridged
  queue : s.works = a.queue
  offloaded : s.offloaded = a.offloaded
  wks : s.wks = s.works.length
  addrs : s.addrs = s.works.length
  refs : ∀ pt, s.refs pt = s.works.countP (·.pt = pt)

/-- An event of the user is a call of the table if its port is in the bridge. -/
theorem eventWork_eq (s : Switchdev) (wk : EventWork) : eventWork s wk =
    if wk.info.addedByUser = true ∧ s.bridged wk.pt = true then
      ((fdbStep s.fdb wk.op).1, { s with
        fdb := (fdbStep s.fdb wk.op).2
        offloaded := if wk.what = .add ∧ (fdbStep s.fdb wk.op).1 = 0 then s.offloaded ++ [(wk.pt, wk.key)] else s.offloaded })
    else (0, s) := by
  obtain ⟨what, ⟨addr, vid, user⟩, pt⟩ := wk
  unfold eventWork
  cases user with
  | false => rfl
  | true =>
    cases hb : s.bridged pt with
    | false => rfl
    | true =>
      simp only [Bool.true_eq_false, if_false, and_self, if_true]
      cases what with
      | add =>
        dsimp only [EventWork.op, EventWork.key, fdbStep, step, FdbOp.op]
        by_cases herr : (edgxBrfdbAdd s.fdb addr vid pt.val).1 = 0
        · simp [herr]
        · simp [herr]
      | del => rfl

namespace Refines

variable {s : Switchdev} {a : Offload}

theorem start {b : Brfdb} (h : Empty b) (hs : b.sents = 0) : Refines { fdb := b } {} :=
  ⟨h.represents hs, rfl, rfl, rfl, rfl, rfl, fun _ => rfl⟩

/-- An event that is queued holds what its work releases. -/
theorem push (h : Refines s a) (wk : EventWork) :
    Refines { s with
      wks := s.wks + 1
      addrs := s.addrs + 1
      refs := Function.update s.refs wk.pt (s.refs wk.pt + 1)
      works := s.works ++ [wk] } { a with queue := a.queue ++ [wk] } where
  map := h.map
  bridged := h.bridged
  queue := congrArg (· ++ [wk]) h.queue
  offloaded := h.offloaded
  wks := by rw [List.length_append, h.wks]; rfl
  addrs := by rw [List.length_append, h.addrs]; rfl
  refs pt := by
    rw [List.countP_append, List.countP_singleton]
    dsimp only
    by_cases hpt : pt = wk.pt
    · subst hpt
      rw [Function.update_self, h.refs, if_pos (by simp)]
    · rw [Function.update_of_ne hpt, h.refs, if_neg (by simpa using Ne.symm hpt), Nat.add_zero]

theorem event (h : Refines s a) (netdev : Option Port) (event : SwitchdevEvent) (info : FdbInfo) (mem : EventMem) :
    Refines (edgxSwitchdevEvent s netdev event info mem).2
      (a.apply (.event netdev event info mem, .notify (edgxSwitchdevEvent s netdev event info mem).1)) := by
  have hsame {x : SwitchdevOp × SwitchdevRet} (hx : queued x = []) : Refines s { a with queue := a.queue ++ queued x } := by
    rw [hx, List.append_nil]
    exact h
  unfold edgxSwitchdevEvent
  cases netdev with
  | none => exact hsame (by cases event <;> rfl)
  | some pt =>
    obtain ⟨wk, addr⟩ := mem
    cases event <;> cases wk <;> cases addr
    all_goals first | exact hsame rfl | exact h.push _

/-- What the work does to the table is what the map takes. -/
theorem eventWork (h : Represents s.fdb a.map) (hbridged : s.bridged = a.bridged) (hoff : s.offloaded = a.offloaded)
    (wk : EventWork) :
    let r := Fdb.eventWork s wk
    Represents r.2.fdb (a.take wk r.1).map ∧ r.2.offloaded = (a.take wk r.1).offloaded ∧
      r.2 = { s with fdb := r.2.fdb, offloaded := r.2.offloaded } := by
  intro r
  have hr : r = Fdb.eventWork s wk := rfl
  rw [eventWork_eq] at hr
  by_cases htakes : wk.info.addedByUser = true ∧ s.bridged wk.pt = true
  · have htakes' : a.Takes wk := by rwa [hbridged] at htakes
    rw [if_pos htakes] at hr
    rw [hr, Offload.take, if_pos htakes', hoff]
    exact ⟨(h.call wk.op).represents, rfl, rfl⟩
  · have htakes' : ¬ a.Takes wk := by rwa [hbridged] at htakes
    rw [if_neg htakes] at hr
    rw [hr, Offload.take, if_neg htakes']
    exact ⟨h, hoff, rfl⟩

theorem take_frame (a : Offload) (wk : EventWork) (err : Int) :
    (a.take wk err).bridged = a.bridged ∧ (a.take wk err).queue = a.queue := by
  unfold Offload.take
  split <;> exact ⟨rfl, rfl⟩

/-- The oldest event is taken out, with what it holds. -/
theorem pop (h : Refines s a) :
    Refines (edgxSwitchdevEventWorkFn s).2 (a.apply (.work, .err (edgxSwitchdevEventWorkFn s).1)) := by
  unfold edgxSwitchdevEventWorkFn Offload.apply
  rw [← h.queue]
  cases hworks : s.works with
  | nil => exact h
  | cons wk works =>
    dsimp only
    obtain ⟨hmap, hoff, hframe⟩ :=
      eventWork (s := { s with works }) (a := { a with queue := works }) h.map h.bridged h.offloaded wk
    obtain ⟨hbridged, hqueue⟩ := take_frame { a with queue := works } wk (Fdb.eventWork { s with works } wk).1
    have hwks := h.wks
    have haddrs := h.addrs
    have hrefs := h.refs
    rw [hworks] at hwks haddrs hrefs
    generalize Fdb.eventWork { s with works } wk = r at hmap hoff hframe hbridged hqueue ⊢
    obtain ⟨err, s'⟩ := r
    dsimp only at hmap hoff hframe hbridged hqueue ⊢
    rw [hframe]
    exact {
      map := hmap
      bridged := h.bridged.trans hbridged.symm
      queue := hqueue.symm
      offloaded := hoff
      wks := by
        dsimp only
        rw [hwks]
        rfl
      addrs := by
        dsimp only
        rw [haddrs]
        rfl
      refs := fun pt => by
        dsimp only
        by_cases hpt : pt = wk.pt
        · subst hpt
          rw [Function.update_self, hrefs, List.countP_cons_of_pos (by simp), Nat.add_sub_cancel]
        · rw [Function.update_of_ne hpt, hrefs, List.countP_cons_of_neg (by simpa using Ne.symm hpt)] }

theorem step (h : Refines s a) (op : SwitchdevOp) :
    Refines (switchdevStep s op).2 (a.apply (op, (switchdevStep s op).1)) := by
  cases op with
  | event netdev event info mem => exact h.event netdev event info mem
  | work => exact h.pop
  | ptFdb op => exact ⟨(h.map.call op).represents, h.bridged, h.queue, h.offloaded, h.wks, h.addrs, h.refs⟩
  | bridge pt bridged =>
    have hbridged : Function.update s.bridged pt bridged = Function.update a.bridged pt bridged := by rw [h.bridged]
    exact ⟨h.map, hbridged, h.queue, h.offloaded, h.wks, h.addrs, h.refs⟩

end Refines

/-- **The driver is a map and a queue of events**, in every order of events, works and
ports that join and leave: the hash table has the map of the events that were taken,
each event is taken once and in order, and what an event holds is released with it. -/
theorem switchdev_refines {b : Brfdb} (h0 : Empty b) (hs : b.sents = 0) (ops : List SwitchdevOp) :
    Refines (after switchdevStep { fdb := b } ops) ((outs switchdevStep { fdb := b } ops).foldl Offload.apply {}) :=
  (Guarded.trivial ops).sim_after (.start h0 hs) fun _ _ op h _ => h.step op

def port1 : Port := ⟨1, one_lt_maxPorts⟩

/-- An entry is added, and its port leaves the bridge before the entry is deleted. -/
def leaveOps : List SwitchdevOp :=
  [.bridge port1 true, .event (some port1) .fdbAddToDevice ⟨someMac, 5, true⟩ {}, .work,
    .event (some port1) .fdbDelToDevice ⟨someMac, 5, true⟩ {}, .bridge port1 false, .work]

/-- The entry stays in the table. -/
theorem switchdev_refines_leave :
    ∃ a : Offload, Refines (after switchdevStep { fdb := emptyTable } leaveOps) a ∧ a.queue = [] ∧
      a.map (someMac, 5) = {port1} :=
  ⟨_, switchdev_refines emptyTable_empty rfl leaveOps, by decide +kernel, by decide +kernel⟩

/-! ## What the bridge asked for -/

/-- The entries that events of the user ask for. -/
def userOps (wks : List EventWork) : List FdbOp := (wks.filter (·.info.addedByUser)).map EventWork.op

/-- The entries that they add. -/
def userAdds (wks : List EventWork) : List (Port × Key) :=
  (wks.filter fun wk => wk.info.addedByUser && wk.what = .add).map fun wk => (wk.pt, wk.key)

/-- The map with entries added and deleted. -/
def mapOf (ops : List FdbOp) : PortMap := ops.foldl (fun m op => m.apply (op, 0)) fun _ => ∅

/-- An event of the user that is taken finds its port in the bridge, and room in the
table. Nothing is asked of a port itself. -/
def Timely (s : Switchdev) : SwitchdevOp → Prop
  | .work => ∀ wk works, s.works = wk :: works → wk.info.addedByUser = true →
      s.bridged wk.pt = true ∧ (edgxSwitchdevEventWorkFn s).1 = 0
  | .ptFdb _ => False
  | _ => True

/-- The events `taken` are in the table, of all that were queued. -/
structure InStep (s : Switchdev) (all : List EventWork) : Prop where
  taken : ∃ taken, all = taken ++ s.works ∧ Represents s.fdb (mapOf (userOps taken)) ∧ s.offloaded = userAdds taken

theorem mapOf_concat (ops : List FdbOp) (op : FdbOp) : mapOf (ops ++ [op]) = (mapOf ops).apply (op, 0) := by
  rw [mapOf, List.foldl_append]
  rfl

theorem InStep.work {s : Switchdev} {all : List EventWork} (h : InStep s all) (hop : Timely s .work) :
    InStep (edgxSwitchdevEventWorkFn s).2 all := by
  obtain ⟨taken, hall, hmap, hoff⟩ := h.taken
  unfold Timely edgxSwitchdevEventWorkFn at hop
  unfold edgxSwitchdevEventWorkFn
  cases hworks : s.works with
  | nil => exact ⟨taken, hall, hmap, hoff⟩
  | cons wk works =>
    rw [hworks] at hop hall
    specialize hop wk works rfl
    dsimp only at hop ⊢
    rw [eventWork_eq] at hop ⊢
    cases huser : wk.info.addedByUser with
    | false =>
      rw [if_neg fun hand => nomatch hand.1]
      refine ⟨taken ++ [wk], by rw [hall, List.append_assoc]; rfl, ?_, ?_⟩
      · rw [userOps, List.filter_append, List.filter_cons_of_neg (by simp [huser]), List.filter_nil, List.append_nil]
        exact hmap
      · rw [userAdds, List.filter_append, List.filter_cons_of_neg (by simp [huser]), List.filter_nil, List.append_nil]
        exact hoff
    | true =>
      obtain ⟨hbridged, herr⟩ := hop huser
      rw [if_pos ⟨huser, hbridged⟩] at herr
      rw [if_pos ⟨rfl, hbridged⟩]
      refine ⟨taken ++ [wk], by rw [hall, List.append_assoc]; rfl, ?_, ?_⟩
      · have hcall := (hmap.call wk.op).represents
        dsimp only at herr
        rw [herr, ← mapOf_concat] at hcall
        rwa [show userOps (taken ++ [wk]) = userOps taken ++ [wk.op] by simp [userOps, huser]]
      · dsimp only at herr ⊢
        rw [herr, userAdds, List.filter_append, List.map_append, hoff]
        cases hwhat : wk.what with
        | add => simp [huser, hwhat, userAdds]
        | del => simp [hwhat, userAdds]

/-- An event is queued, and nothing else. -/
theorem event_frame (s : Switchdev) (netdev : Option Port) (event : SwitchdevEvent) (info : FdbInfo) (mem : EventMem) :
    let r := edgxSwitchdevEvent s netdev event info mem
    r.2.works = s.works ++ queued (.event netdev event info mem, .notify r.1) ∧ r.2.fdb = s.fdb ∧
      r.2.offloaded = s.offloaded := by
  unfold edgxSwitchdevEvent
  cases netdev with
  | none => cases event <;> exact ⟨(List.append_nil _).symm, rfl, rfl⟩
  | some pt =>
    obtain ⟨wk, addr⟩ := mem
    cases event <;> cases wk <;> cases addr
    all_goals first | exact ⟨(List.append_nil _).symm, rfl, rfl⟩ | exact ⟨rfl, rfl, rfl⟩

theorem InStep.step {s : Switchdev} {all : List EventWork} (h : InStep s all) {op : SwitchdevOp} (hop : Timely s op) :
    InStep (switchdevStep s op).2 (all ++ queued (op, (switchdevStep s op).1)) := by
  cases op with
  | event netdev event info mem =>
    obtain ⟨taken, hall, hmap, hoff⟩ := h.taken
    obtain ⟨hworks, hfdb, hoff'⟩ := event_frame s netdev event info mem
    refine ⟨taken, ?_, ?_, hoff'.trans hoff⟩
    · rw [hall, List.append_assoc]
      exact congrArg (taken ++ ·) hworks.symm
    · exact (show (switchdevStep s (.event netdev event info mem)).2.fdb = s.fdb from hfdb) ▸ hmap
  | work =>
    rw [show queued (.work, (switchdevStep s .work).1) = [] from rfl, List.append_nil]
    exact h.work hop
  | ptFdb op => exact hop.elim
  | bridge pt bridged =>
    rw [show queued (.bridge pt bridged, (switchdevStep s (.bridge pt bridged)).1) = [] from rfl, List.append_nil]
    exact ⟨h.taken⟩

end TsnSwitch.Fdb
