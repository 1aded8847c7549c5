/-
The callbacks for gate-enabled and config-change of the two plugins (sched.c and
stream_filter_gates.c), and the transactions of the datastore that run them.

A change carries what the library and the driver answer when it is handled. The
two leaves of an interface, or of a stream gate, are named by the xpath of its
config-change leaf. Handling a change is the same text in both plugins; the
loops over the changes are not.
-/
import TsnSwitch.Sysrepo.ConfigChange

namespace TsnSwitch.Sysrepo

open Lib

/-! ## What is called -/

/-- `sr_change_oper_t`. -/
inductive ChangeOp where
  | created
  | modified
  | deleted
  | moved
  deriving DecidableEq

def ChangeOp.num : ChangeOp → Nat
  | .created => 0
  | .modified => 1
  | .deleted => 2
  | .moved => 3

def SR_OP_DELETED : Nat := ChangeOp.deleted.num

theorem num_deleted {op : ChangeOp} (h : ¬ (op = .modified ∨ op = .created)) : op.num &&& SR_OP_DELETED ≠ 0 := by
  cases op with
  | created => exact absurd (.inr rfl) h
  | modified => exact absurd (.inl rfl) h
  | deleted => decide
  | moved => decide

/-- A change of one of the two leaves. -/
structure Change where
  op : ChangeOp
  leaf : String
  keyOk : Bool := true
  gateKeyOk : Bool := true
  openOk : Bool := true
  featOk : Bool := true
  configChangeOk : Bool := true
  gateEnabledOk : Bool := true
  validOk : Bool := true
  setGateEnabledOk : Bool := true
  setConfigChangeOk : Bool := true
  allocOk : Bool := true

inductive Call where
  | changesIter
  | key
  | gateKey
  | open
  | feature
  | readConfigChange
  | readGateEnabled
  | validate
  | setGateEnabled (value : Bool)
  | setConfigChange (value : Bool)
  /-- A leaf that is removed has no value that could be written. -/
  | remove
  deriving DecidableEq

/-- A call that was made, and how it went. -/
structure Called where
  leaf : String
  call : Call
  ok : Bool
  deriving DecidableEq

def Change.calls (c : Change) (call : Call) (ok : Bool) : Called := ⟨c.leaf, call, ok⟩

/-! ## Handling a change -/

/-- `interface_sched_set_gate_enabled` and `psfp_set_gate_enabled`. -/
def setGateEnabled (c : Change) (gateEnabled : Bool) : SrError × List Called :=
  (if c.setGateEnabledOk then .ok else .operationFailed, [c.calls (.setGateEnabled gateEnabled) c.setGateEnabledOk])

/-- `interface_sched_set_config_change` and `psfp_set_config_change`. -/
def setConfigChange (c : Change) (configChange : Bool) : SrError × List Called :=
  (if c.setConfigChangeOk then .ok else .operationFailed,
    [c.calls (.setConfigChange configChange) c.setConfigChangeOk])

/-- The next call, if none has failed so far. -/
def andThen (r : SrError × List Called) (next : SrError × List Called) : SrError × List Called :=
  if r.1 = .ok then (next.1, r.2 ++ next.2) else r

/-- `interface_sched_apply_config_change` and `psfp_apply_config_change`. When
the gate is to be enabled config-change is written first, otherwise last. -/
def applyConfigChange (c : Change) (gateEnabled configChange : Bool) : SrError × List Called :=
  let gateEnabledFirst := !gateEnabled
  let checked : SrError × List Called :=
    if gateEnabled && configChange then
      (if c.validOk then .ok else .callbackFailed, [c.calls .validate c.validOk])
    else (.ok, [])
  if gateEnabledFirst then andThen (andThen checked (setGateEnabled c gateEnabled)) (setConfigChange c configChange)
  else andThen (andThen checked (setConfigChange c configChange)) (setGateEnabled c gateEnabled)

/-- `interface_sched_handle_config_change` and `psfp_handle_config_change`.
`port` says whether there is a handle, and `pair` are the values of gate-enabled
and config-change in the session. -/
def handleConfigChange (port : Bool) (pair : Bool × Bool) (c : Change) (resetList : ResetList) :
    SrError × ResetList × List Called :=
  if !c.configChangeOk then (.operationFailed, resetList, [c.calls .readConfigChange false])
  else if configChangeListExists resetList c.leaf then (.ok, resetList, [c.calls .readConfigChange true])
  else if !c.gateEnabledOk then
    (.other, resetList, [c.calls .readConfigChange true, c.calls .readGateEnabled false])
  else
    let (ret, written) := if port then applyConfigChange c pair.1 pair.2 else (.ok, [])
    let calls := c.calls .readConfigChange true :: c.calls .readGateEnabled true :: written
    if ret = .ok then
      let (ret, resetList) := configChangeListPush resetList c.leaf (pair.1 && pair.2) c.allocOk
      (ret, resetList, calls)
    else (ret, resetList, calls)

/-! ## The callbacks -/

/-- How handling one change ends. -/
inductive Next where
  | next
  /-- The loop is left with an error, for the end of the callback. -/
  | leave (ret : SrError)
  /-- The callback returns at once. -/
  | return (ret : SrError)
  deriving DecidableEq

structure Loop where
  next : Next
  list : ResetList
  calls : List Called

/-- The loop of `interface_sched_config_change_cb`. -/
def schedChange (pair : String → Bool × Bool) (c : Change) (resetList : ResetList) : Loop :=
  let key := c.calls .key c.keyOk
  if !c.keyOk then ⟨.return .operationFailed, resetList, [key]⟩
  else if c.op = .modified ∨ c.op = .created then
    if !c.openOk then ⟨.leave .operationFailed, resetList, [key, c.calls .open false]⟩
    else if !c.featOk then ⟨.leave .operationFailed, resetList, [key, c.calls .open true, c.calls .feature false]⟩
    else
      let (ret, list, calls) := handleConfigChange true (pair c.leaf) c resetList
      ⟨if ret = .ok then .next else .leave .operationFailed, list,
        key :: c.calls .open true :: c.calls .feature true :: calls⟩
  else if c.op.num &&& SR_OP_DELETED ≠ 0 then
    ⟨.leave .operationFailed, resetList, [key, c.calls .remove false]⟩
  else ⟨.next, resetList, [key]⟩

/-- The loop of `psfp_config_change_cb`. -/
def psfpChange (pair : String → Bool × Bool) (c : Change) (resetList : ResetList) : Loop :=
  let key := c.calls .key c.keyOk
  let gateKey := c.calls .gateKey c.gateKeyOk
  if !c.keyOk then ⟨.return .operationFailed, resetList, [key]⟩
  else if !c.gateKeyOk then ⟨.return .operationFailed, resetList, [key, gateKey]⟩
  else if c.op = .modified ∨ c.op = .created then
    if !c.openOk then ⟨.return .operationFailed, resetList, [key, gateKey, c.calls .open false]⟩
    else
      let (ret, list, calls) := handleConfigChange true (pair c.leaf) c resetList
      ⟨if ret = .ok then .next else .leave .operationFailed, list, key :: gateKey :: c.calls .open true :: calls⟩
  else if c.op.num &&& SR_OP_DELETED ≠ 0 then
    ⟨.leave .operationFailed, resetList, [key, gateKey, c.calls .remove false]⟩
  else ⟨.next, resetList, [key, gateKey]⟩

def loop (body : Change → ResetList → Loop) : List Change → ResetList → Loop
  | [], list => ⟨.next, list, []⟩
  | c :: cs, list =>
    let r := body c list
    if r.next = .next then
      let rest := loop body cs r.list
      { rest with calls := r.calls ++ rest.calls }
    else r

/-- The private data of the subscription, and the helper. -/
structure Plugin where
  resetList : ResetList := []
  helper : Helper := {}

inductive Event where
  | change (iterOk : Bool) (pair : String → Bool × Bool) (changes : List Change)
  | done (allocOk : Bool) (w : Nat)
  | abort

/-- ABORT and DONE, and what is done while the plugin is initialised. -/
def otherEvents (s : Plugin) : Event → Plugin
  | .abort => { s with resetList := configChangeListClear s.resetList }
  | .done allocOk w =>
    let (list, helper) := configChangeListEnqueue s.helper s.resetList allocOk w
    { s with resetList := list, helper }
  | .change .. => s

def interfaceSchedConfigChangeCb (pluginInit : Bool) (s : Plugin) (event : Event) :
    (SrError × List Called) × Plugin :=
  match event with
  | .change iterOk pair changes =>
    if !pluginInit then ((.ok, []), s)
    else if !iterOk then ((.other, [⟨"", .changesIter, false⟩]), s)
    else
      let r := loop (schedChange pair) changes s.resetList
      match r.next with
      | .return ret => ((ret, r.calls), { s with resetList := r.list })
      | .leave ret => ((ret, r.calls), { s with resetList := configChangeListClear r.list })
      | .next => ((.ok, r.calls), { s with resetList := r.list })
  | event => ((.ok, []), otherEvents s event)

/-- It returns `SR_ERR_OK` where the loop was left with an error. -/
def psfpConfigChangeCb (pluginInit : Bool) (s : Plugin) (event : Event) : (SrError × List Called) × Plugin :=
  match event with
  | .change iterOk pair changes =>
    if !pluginInit then ((.ok, []), s)
    else if !iterOk then ((.other, [⟨"", .changesIter, false⟩]), s)
    else
      let r := loop (psfpChange pair) changes s.resetList
      match r.next with
      | .return ret => ((ret, r.calls), { s with resetList := r.list })
      | .leave _ => ((.ok, r.calls), { s with resetList := configChangeListClear r.list })
      | .next => ((.ok, r.calls), { s with resetList := r.list })
  | event => ((.ok, []), otherEvents s event)

/-! ## Transactions -/

inductive Implementation where
  | sched
  | psfp
  deriving DecidableEq

def Implementation.cb : Implementation → Bool → Plugin → Event → (SrError × List Called) × Plugin
  | .sched => interfaceSchedConfigChangeCb
  | .psfp => psfpConfigChangeCb

/-- The changes of one transaction. `committed` says whether the other callbacks
accept it, and `allocOk` whether its list can be queued. -/
structure Transaction where
  pair : String → Bool × Bool
  changes : List Change
  iterOk : Bool := true
  committed : Bool := true
  allocOk : Bool := true
  w : Nat := 0

/-- The datastore runs the callback with the changes, and if it accepts them once
more when it knows how the transaction ends. A callback that returns an error is
not called again. -/
def transact (m : Implementation) (s : Plugin) (tx : Transaction) : (SrError × List Called) × Plugin :=
  let r := m.cb true s (.change tx.iterOk tx.pair tx.changes)
  if r.1.1 = .ok then (r.1, (m.cb true r.2 (if tx.committed then .done tx.allocOk tx.w else .abort)).2) else r

end TsnSwitch.Sysrepo
