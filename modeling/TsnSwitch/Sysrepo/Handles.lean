/-
The port handles and list buffers of the callbacks for scheduling and for the
admin control lists (sched.c and stream_filter_gates.c).

A change carries the answers of the library's calls that are made for it. Each
callback opens a port for a change, allocates a buffer for an entry, and has to
give both back on every way out. Only the callback for created and deleted
entries of interfaces always does; `HandleCall.Sound` says what the others need.
-/
import TsnSwitch.Sysrepo.AclMod

namespace TsnSwitch.Sysrepo.Acl

open Lib

/-- The two variables, with all that was opened and allocated. -/
structure Resources where
  port : Holder := .start
  gcl : Holder := .start

namespace Resources

def openPort (s : Resources) : Resources := { s with port := s.port.acquire }
def closePort (s : Resources) : Resources := { s with port := s.port.release }
def freeGcl (s : Resources) : Resources := { s with gcl := s.gcl.release }

/-- Every handle was closed once, and every buffer freed once. -/
def Clean (s : Resources) : Prop := s.port.Clean ∧ s.gcl.Clean

end Resources

/-- What a callback returns, and its resources then. -/
abbrev Left := SrError × Resources

def failWith (s : Resources) : Except Left Resources := .error (.operationFailed, s)

/-- The callbacks that look at changes unless the event is DONE; `last` is done
behind the loop. -/
def resourcesCallback {γ : Type} (event : SrEvent) (pluginInit iterOk : Bool)
    (turn : Resources → γ → Except Left Resources) (last : Resources → Resources) (changes : List γ) : Left :=
  if event = .done || !pluginInit then (.ok, {})
  else if !iterOk then (.other, {})
  else
    match changes.foldlM turn {} with
    | .ok s => (.ok, last s)
    | .error e => e

/-! ## Entries that are created -/

/-- The end of adding an entry: the list up to it is read, and written with it. -/
structure Store where
  driverLength : Option (BitVec 32)
  mallocOk : Bool := true
  getOk : Bool := true
  setOk : Bool := true

/-- `ret`, and the buffer. -/
def Store.run (a : Store) (op : ChangeOp) (index : BitVec 32) (gcl : Holder) : Bool × Holder :=
  match a.driverLength with
  | none => (true, gcl)
  | some gclLen =>
    if op.num &&& ChangeOp.created.num ≠ 0 ∧ (gclLen = 0 ∨ MAX_NUMBER_OF_ACL < gclLen.toNat) then (false, gcl)
    else if !a.mallocOk then (true, gcl.clear)
    else if index ≠ 0 ∧ !a.getOk then (true, gcl.acquire.release)
    else if !a.setOk then (true, gcl.acquire.release)
    else (false, gcl.acquire)

/-- Out of the block for a created entry, with `ret` and the buffer. -/
def Resources.leaveEntry (s : Resources) (b : Bool × Holder) : Except Left Resources :=
  let s := { s with gcl := b.2 }
  if b.1 then failWith s.closePort else .ok s.closePort.freeGcl

/-! ### Interfaces -/

/-- A change of an entry of an interface. -/
structure AclChange where
  op : ChangeOp
  /-- There is a node. -/
  present : Bool := true
  keyOk : Bool := true
  length : Option (BitVec 32)
  /-- The node is an index. -/
  isIndex : Bool := true
  index : BitVec 32
  opens : Bool := true
  feat : Bool := true
  lengthAgain : Option (BitVec 32)
  setLengthOk : Bool := true
  configChange : Option Bool
  validOk : Bool := true
  leaves : SchedLeaves
  granularity : Option Granularity
  store : Store
  /-- The entries that are left, where `sr_get_items` gives them. -/
  entries : Option (BitVec 32)

/-- The leaves of the entry are got, and its interval is aligned. -/
def AclChange.reads (c : AclChange) : Bool :=
  match c.leaves.operationName with
  | none => false
  | some name =>
    match translateSingleStringUsingMap name schedOpNameMap, translateSingleStringUsingMap name schedGclMap with
    | some _, some container =>
      match (c.leaves.params container).gateStatesValue, (c.leaves.params container).timeIntervalValue with
      | some _, some interval =>
        match c.granularity with
        | none => false
        | some granularity => interval.toNat % (granularity.1.toNat / 10) = 0
      | _, _ => false
    | _, _ => false

def AclChange.body (c : AclChange) (gcl : Holder) : Bool × Holder :=
  if !c.feat then (true, gcl)
  else
    match c.lengthAgain with
    | none => (true, gcl)
    | some gclLen =>
      if MAX_NUMBER_OF_ACL < gclLen.toNat then (true, gcl)
      else if gclLen ≤ c.index then (true, gcl)
      else if !c.setLengthOk then (true, gcl)
      else
        match c.configChange with
        | none => (true, gcl)
        | some configChange =>
          if configChange && !c.validOk then (true, gcl)
          else if !c.reads then (true, gcl)
          else c.store.run c.op c.index gcl

/-- `interface_sched_acl_cb`. The number of entries is counted from 0 in every
turn. -/
def aclTurn (s : Resources) (c : AclChange) : Except Left Resources :=
  -- a `break`: the callback returns what sr_get_changes_iter did
  if !c.present then .error (.ok, s)
  else if !c.keyOk then failWith s
  else
    match c.length with
    | none => .error (.ok, s)
    | some adminControlListLength =>
      if c.op = .created ∧ c.isIndex then
        if !c.opens then failWith { s with port := s.port.clear }
        else s.openPort.leaveEntry (c.body s.gcl)
      else if c.op = .deleted then
        match c.entries with
        | none => failWith s
        | some numberOfAcl => if adminControlListLength ≠ numberOfAcl then failWith s else .ok s
      else .ok s

/-! ### Stream gates -/

/-- A change of an entry of a stream gate. -/
structure PsfpChange where
  op : ChangeOp
  present : Bool := true
  keyOk : Bool := true
  gateKeyOk : Bool := true
  opens : Bool := true
  /-- The entries, where `sr_get_items` gives them or finds none. -/
  entries : Option (BitVec 32)
  indices : Option (List (BitVec 32))
  setLengthOk : Bool := true
  isIndex : Bool := true
  index : BitVec 32
  setLengthAgainOk : Bool := true
  validOk : Bool := true
  leaves : PsfpLeaves
  granularity : Option Granularity
  store : Store

/-- How the leaves of the entry are read, but for the row they give. -/
def PsfpChange.read (c : PsfpChange) : Read Unit :=
  match c.leaves.operationName with
  | none => .failed
  | some name =>
    if name ≠ "ieee802-dot1q-psfp:set-gate-and-ipv" then .skipped
    else
      match c.leaves.gateStateValue with
      | none => .failed
      | some gateState =>
        match translateSingleStringUsingMap gateState psfpAgsReverseMap with
        | none => .skipped
        | some _ =>
          match c.leaves.timeIntervalValue, c.granularity with
          | some interval, some granularity =>
            if interval.toNat % (granularity.1.toNat / 10) ≠ 0 then .failed
            else
              match c.leaves.ipvSpec with
              | none => .failed
              | some ipvSpec =>
                match translateSingleStringUsingMap ipvSpec sfgIpvSpecReverseMap with
                | none => .skipped
                | some _ => .row ()
          | _, _ => .failed

def PsfpChange.body (c : PsfpChange) (gclLen : BitVec 32) (gcl : Holder) : Bool × Holder :=
  if MAX_NUMBER_OF_ACL < gclLen.toNat then (true, gcl)
  else if gclLen ≤ c.index then (true, gcl)
  else if !c.setLengthAgainOk then (true, gcl)
  else if !c.validOk then (true, gcl)
  else
    match c.read with
    | .failed => (true, gcl)
    | .skipped => (false, gcl)
    | .row () => c.store.run c.op c.index gcl

/-- `psfp_acl_cb`. Entries and valid lists are counted from 0 in every turn. -/
def psfpTurn (s : Resources) (c : PsfpChange) : Except Left Resources :=
  if !c.present then .error (.ok, s)
  else if !c.keyOk || !c.gateKeyOk then failWith s
  else if !c.opens then failWith { s with port := s.port.clear }
  else
    let s := s.openPort
    match c.entries, c.indices with
    | some gclLen, some indices =>
      match scanIndices gclLen.toNat 0 0 indices with
      | none => failWith s
      | some validGclLen =>
        if validGclLen = 0 ∧ gclLen ≠ 0 then failWith s
        else if !c.setLengthOk then failWith s.closePort
        else
          -- closed here where there is no entry
          let s := if validGclLen = 0 then s.closePort else s
          if c.op = .created ∧ c.isIndex then s.leaveEntry (c.body gclLen s.gcl) else .ok s
    | _, _ => failWith s

/-! ## Other leaves -/

/-- A change of another leaf of the scheduling parameters. -/
structure ElementChange where
  op : ChangeOp
  keyOk : Bool := true
  opens : Bool := true
  portIdOk : Bool := true
  feat : Bool := true
  leaf : String
  trafficClassOk : Bool := true
  setMaxSduOk : Bool := true
  setGateStatesOk : Bool := true
  secondsOk : Bool := true
  fractionalSecondsOk : Bool := true
  numeratorOk : Bool := true
  denominatorOk : Bool := true
  extensionOk : Bool := true
  setBaseTimeOk : Bool := true
  setCycleTimeOk : Bool := true
  setExtensionOk : Bool := true

def SCHED_QUEUE_MAX_SDU : Nat := 2
def SCHED_ADMIN_GATE_STATES : Nat := 6

/-- To `chg_free_port_hdl`, with an error. -/
def Resources.leave (s : Resources) (rc : SrError) : Except Left Resources := .error (rc, s.closePort)

/-- A turn behind which the variable is NULL. -/
def Resources.closed (s : Resources) : Resources := { s with port := s.port.release.clear }

def ElementChange.set (c : ElementChange) (s : Resources) : Except Left Resources :=
  let objIndex := findObjIndexByName c.leaf schedMap
  if objIndex = SCHED_QUEUE_MAX_SDU then
    if !c.trafficClassOk then failWith s else .error (if c.setMaxSduOk then .ok else .operationFailed, s.closePort)
  else if objIndex = SCHED_ADMIN_GATE_STATES then
    .error (if c.setGateStatesOk then .ok else .operationFailed, s.closePort)
  else if !c.secondsOk || !c.fractionalSecondsOk || !c.numeratorOk || !c.denominatorOk || !c.extensionOk then
    s.leave .callbackFailed
  else if !c.setBaseTimeOk || !c.setCycleTimeOk || !c.setExtensionOk then s.leave .operationFailed
  else .ok s.closed

/-- `interface_sched_elements_cb`. -/
def elementsTurn (s : Resources) (c : ElementChange) : Except Left Resources :=
  if !c.keyOk then failWith s
  else if c.op = .modified ∨ c.op = .created then
    if !c.opens then failWith { s with port := s.port.clear }
    else
      let s := s.openPort
      if !c.portIdOk then s.leave .operationFailed
      -- closed here and at the label
      else if !c.feat then s.closePort.leave .operationFailed
      else c.set s
  else if c.op.num &&& SR_OP_DELETED ≠ 0 then failWith s
  else .ok s

/-- `interface_sched_config_change_cb`, with the list of what was handled. -/
def configChangeTurn (pair : String → Bool × Bool) (s : Resources × ResetList) (c : Change) :
    Except Left (Resources × ResetList) :=
  if !c.keyOk then .error (.operationFailed, s.1)
  else if c.op = .modified ∨ c.op = .created then
    if !c.openOk then .error (.operationFailed, { s.1 with port := s.1.port.clear })
    else
      let t := s.1.openPort
      if !c.featOk then .error (.operationFailed, t.closePort.closePort)
      else
        let (ret, list, _) := handleConfigChange true (pair c.leaf) c s.2
        if ret = .ok then .ok (t.closed, list) else .error (.operationFailed, t.closePort)
  else if c.op.num &&& SR_OP_DELETED ≠ 0 then .error (.operationFailed, s.1)
  else .ok s

/-! ## The callbacks -/

/-- A call of one of the callbacks. -/
inductive HandleCall where
  | acl (event : SrEvent) (pluginInit iterOk : Bool) (changes : List AclChange)
  | aclMod (call : ModCall)
  | elements (event : SrEvent) (pluginInit iterOk : Bool) (changes : List ElementChange)
  | configChange (event : SrEvent) (pluginInit iterOk : Bool) (pair : String → Bool × Bool) (list : ResetList)
    (changes : List Change)
  | psfpAcl (event : SrEvent) (pluginInit iterOk : Bool) (changes : List PsfpChange)

def ModEnd.resources : ModEnd → Option Resources
  | .overrun => none
  | .returned _ s => some { port := s.port, gcl := s.gcl }

/-- The resources when the callback returns, if it does not write behind the end
of its variables. -/
def HandleCall.resources : HandleCall → Option Resources
  | .acl event pluginInit iterOk changes => some (resourcesCallback event pluginInit iterOk aclTurn id changes).2
  | .aclMod call => (interfaceSchedAclModCb call).resources
  | .elements event pluginInit iterOk changes =>
    -- the label chg_free_port_hdl is behind the loop
    some (resourcesCallback event pluginInit iterOk elementsTurn Resources.closePort changes).2
  | .configChange event pluginInit iterOk pair list changes =>
    if event = .abort || event = .done || !pluginInit || !iterOk then some {}
    else
      match changes.foldlM (configChangeTurn pair) ({}, list) with
      | .ok s => some s.1.closePort
      | .error e => some e.2
  | .psfpAcl event pluginInit iterOk changes => some (resourcesCallback event pluginInit iterOk psfpTurn id changes).2

/-- What was opened is closed once, and what was allocated is freed once. -/
def HandleCall.Disciplined (call : HandleCall) : Prop := ∃ s ∈ call.resources, s.Clean

/-! ## When they are disciplined -/

/-- Changes are looked at in this event. -/
def looks (event : SrEvent) (pluginInit iterOk : Bool) : Bool := event ≠ .done && pluginInit && iterOk

/-- A modification by which a buffer is allocated and freed, if the callback goes
on behind it. -/
def ModChange.Frees (c : ModChange) (pairs : List LengthPair) : Prop :=
  c.op = .modified ∧ ∃ l ∈ c.lengths pairs, l.taken ≠ 0

/-- The key of the entry is found in a port that is open, the list is read if a
buffer is allocated, and where there is no length no buffer was freed before. -/
def ModChange.Disciplined (pairs : List LengthPair) (before : List ModChange) (c : ModChange) : Prop :=
  c.interface ≠ none → c.op = .modified →
    (c.opens && c.feat → c.index ≠ none) ∧
      ∀ l ∈ c.lengths pairs,
        (l.taken = 0 → ∀ b ∈ before, ¬b.Frees pairs) ∧ (l.taken ≠ 0 → c.mallocOk = true → c.rows ≠ none)

/-- The callback goes on behind the change. -/
def ElementChange.passes (c : ElementChange) : Bool :=
  c.keyOk && (c.op = .modified ∨ c.op = .created) && c.opens && c.portIdOk && c.feat && c.leaf ≠ "queue-max-sdu" &&
    c.leaf ≠ "admin-gate-states" && c.secondsOk && c.fractionalSecondsOk && c.numeratorOk && c.denominatorOk &&
    c.extensionOk && c.setBaseTimeOk && c.setCycleTimeOk && c.setExtensionOk

/-- The port has the feature, and the traffic class of a maximal size is found. -/
def ElementChange.Disciplined (c : ElementChange) : Prop :=
  c.keyOk = true → c.op = .modified ∨ c.op = .created → c.opens = true → c.portIdOk = true →
    c.feat = true ∧ (c.leaf = "queue-max-sdu" → c.trafficClassOk = true)

/-- What is in the list behind some changes. -/
def handledList (pair : String → Bool × Bool) (list : ResetList) (before : List Change) : ResetList :=
  before.foldl (fun list c => (handleConfigChange true (pair c.leaf) c list).2.1) list

def ConfigPasses (pair : String → Bool × Bool) (list : ResetList) (before : List Change) (c : Change) : Prop :=
  c.keyOk = true ∧ (c.op = .modified ∨ c.op = .created) ∧ c.openOk = true ∧ c.featOk = true ∧
    (handleConfigChange true (pair c.leaf) c (handledList pair list before)).1 = .ok

/-- The port has the feature. -/
def ConfigDisciplined (c : Change) : Prop :=
  c.keyOk = true → c.op = .modified ∨ c.op = .created → c.openOk = true → c.featOk = true

/-- The number of entries, and of lists found valid, where neither is wrong. -/
def PsfpChange.counts (c : PsfpChange) : Option (BitVec 32 × Nat) :=
  match c.entries, c.indices with
  | some gclLen, some indices =>
    (scanIndices gclLen.toNat 0 0 indices).bind fun validGclLen =>
      if validGclLen = 0 ∧ gclLen ≠ 0 then none else some (gclLen, validGclLen)
  | _, _ => none

def PsfpChange.Adds (c : PsfpChange) : Prop := c.op = .created ∧ c.isIndex = true

/-- The leaves of the entry are looked at. -/
def PsfpChange.Enters (c : PsfpChange) (gclLen : BitVec 32) : Prop :=
  gclLen.toNat ≤ MAX_NUMBER_OF_ACL ∧ c.index < gclLen ∧ c.setLengthAgainOk = true ∧ c.validOk = true

def Store.Ok (a : Store) (index : BitVec 32) : Prop :=
  a.driverLength ≠ none ∧ a.mallocOk = true ∧ (index ≠ 0 → a.getOk = true) ∧ a.setOk = true

def PsfpChange.Passes (c : PsfpChange) : Prop :=
  c.present = true ∧ c.keyOk = true ∧ c.gateKeyOk = true ∧ c.opens = true ∧
    ∃ n ∈ c.counts, c.setLengthOk = true ∧
      (c.Adds → c.Enters n.1 ∧ (c.read = .skipped ∨ c.read = .row () ∧ c.store.Ok c.index))

/-- An entry for which a buffer is allocated and freed, if the callback goes on
behind it. -/
def PsfpChange.Frees (c : PsfpChange) : Prop := c.Adds ∧ c.read = .row ()

/-- The entries are got and have the right indices; then, unless the length is
refused, an entry is added just when there are some, and it is passed over only
if no buffer was freed before. -/
def PsfpChange.Disciplined (before : List PsfpChange) (c : PsfpChange) : Prop :=
  c.present = true → c.keyOk = true → c.gateKeyOk = true → c.opens = true →
    ∃ n ∈ c.counts, c.setLengthOk = true →
      (c.Adds ↔ n.2 ≠ 0) ∧ (c.Adds → c.Enters n.1 → c.read = .skipped → ∀ b ∈ before, ¬b.Frees)

/-- What each of the callbacks needs. -/
def HandleCall.Sound : HandleCall → Prop
  | .acl .. => True
  | .aclMod call =>
    call.acts = true → call.lengthIterOk = true →
      (lengthPairs call.lengthChanges).length ≤ BASE_EIGHT ∧
        (keysFound call.lengthChanges = true → call.iterOk = true →
          AllReached (fun _ c => c.Passes (lengthPairs call.lengthChanges))
            (ModChange.Disciplined (lengthPairs call.lengthChanges)) call.changes)
  | .elements event pluginInit iterOk changes =>
    looks event pluginInit iterOk = true → AllReached (fun _ c => c.passes = true) (fun _ c => c.Disciplined) changes
  | .configChange event pluginInit iterOk pair list changes =>
    event ≠ .abort → looks event pluginInit iterOk = true →
      AllReached (ConfigPasses pair list) (fun _ c => ConfigDisciplined c) changes
  | .psfpAcl event pluginInit iterOk changes =>
    looks event pluginInit iterOk = true → AllReached (fun _ c => c.Passes) PsfpChange.Disciplined changes

end TsnSwitch.Sysrepo.Acl
