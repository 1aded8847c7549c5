/-
The maps that are passed to `translate_single_string_using_map`, by the
sysrepo plugins and by the tables of the agent.

Three of them end by a pair of their own, all others are declared for exactly
their entries.
-/
import TsnSwitch.Base.Translators
import TsnSwitch.Sysrepo.StreamFilter

namespace TsnSwitch.Sysrepo.Maps

open Base

/-! ## The plugins -/

def activeMap : StringMap := ⟨[("Active", "true"), ("Passive", "false")], 2, rfl, rfl, rfl, rfl⟩

def algorithmMap : StringMap := ⟨[("vector", "0"), ("match", "1")], 2, rfl, rfl, rfl, rfl⟩

def cbSidTypeMap : StringMap :=
  ⟨[("1", "null-stream-identification"), ("2", "smac-vlan-stream-identification"),
    ("3", "dmac-vlan-stream-identification"), ("4", "ip-stream-identification")], 4, rfl, rfl, rfl, rfl⟩

def streamTaggedMap : StringMap := ⟨[("1", "tagged"), ("2", "priority"), ("3", "all")], 3, rfl, rfl, rfl, rfl⟩

def streamTaggedReverseMap : StringMap :=
  ⟨[("tagged", "1"), ("priority", "2"), ("all", "3")], 3, rfl, rfl, rfl, rfl⟩

/-- Two components share the key `unhandled`, the first has it. -/
def portIdSubtypeMap : StringMap :=
  ⟨[("ifalias", "interface-alias"), ("unhandled", "port-component"), ("mac", "mac-address"), ("ip", "network-address"),
    ("ifname", "interface-name"), ("unhandled", "agent-circuit-id"), ("local", "local")], 7, rfl, rfl, rfl, rfl⟩

def chassisIdSubtypeMap : StringMap :=
  ⟨[("unhandled", "chassis-component"), ("ifalias", "interface-alias"), ("unhandled", "port-component"),
    ("mac", "mac-address"), ("ip", "network-address"), ("ifname", "interface-name"), ("local", "local")],
    7, rfl, rfl, rfl, rfl⟩

def trueFalseMap : StringMap := ⟨[("1", "yes "), ("0", "no ")], 2, rfl, rfl, rfl, rfl⟩

def macMergeEnableMap : StringMap := ⟨[("Enabled", "true"), ("Disabled", "false")], 2, rfl, rfl, rfl, rfl⟩

def mergeSupportMap : StringMap := ⟨[("1", "Supported"), ("0", "Not Supported")], 2, rfl, rfl, rfl, rfl⟩

def verifyStatusMap : StringMap :=
  ⟨[("1", "unknown"), ("2", "initial"), ("3", "verifying"), ("4", "succeeded"), ("5", "failed"), ("6", "disabled")],
    7, rfl, rfl, rfl, rfl⟩

def statusTxMap : StringMap := ⟨[("1", "unknown"), ("2", "inactive"), ("3", "active")], 3, rfl, rfl, rfl, rfl⟩

def schedGclMap : StringMap := ⟨Acl.schedGclMap, 3, rfl, rfl, rfl, rfl⟩

def schedOpNameMap : StringMap := ⟨Acl.schedOpNameMap, 3, rfl, rfl, rfl, rfl⟩

def qBridgePortTypeMap : StringMap :=
  ⟨[("1", "none"), ("2", "c-vlan-bridge-port"), ("3", "provider-network-port"), ("4", "customer-network-port"),
    ("5", "customer-edge-port"), ("8", "d-bridge-port"), ("9", "remote-customer-access-port")],
    7, rfl, rfl, rfl, rfl⟩

def qBridgeAcceptableFrameMap : StringMap :=
  ⟨[("1", "admit-all-frames"), ("2", "admit-only-untagged-and-priority-tagged"),
    ("3", "admit-only-VLAN-tagged-frames")], 3, rfl, rfl, rfl, rfl⟩

def ethSpeedMapCb : StringMap :=
  ⟨[("0.010", "10"), ("0.100", "100"), ("1.000", "1000"), ("10.000", "10000")], 4, rfl, rfl, rfl, rfl⟩

/-- The last key is the empty text. -/
def ifXmlEnableMap : StringMap :=
  ⟨[("LOWER_UP", "true"), ("NO-CARRIER", "true"), ("", "false")], 3, rfl, rfl, rfl, rfl⟩

def ifEnableMap : StringMap := ⟨[("true", "up"), ("false", "down")], 2, rfl, rfl, rfl, rfl⟩

def interfaceSpeedMap : StringMap :=
  ⟨[("10Mb/s", "10000000"), ("100Mb/s", "100000000"), ("1000Mb/s", "1000000000")], 3, rfl, rfl, rfl, rfl⟩

def sfgPrioSpecMap : StringMap :=
  ⟨[("0", "zero"), ("1", "one"), ("2", "two"), ("3", "three"), ("4", "four"), ("5", "five"), ("6", "six"),
    ("7", "seven"), ("-1", "wildcard")], 9, rfl, rfl, rfl, rfl⟩

def sfgPrioSpecReverseMap : StringMap := ⟨Filter.sfgPrioSpecReverseMap, 9, rfl, rfl, rfl, rfl⟩

def sfgIpvSpecMap : StringMap :=
  ⟨[("0", "zero"), ("1", "one"), ("2", "two"), ("3", "three"), ("4", "four"), ("5", "five"), ("6", "six"),
    ("7", "seven"), ("-1", "null")], 9, rfl, rfl, rfl, rfl⟩

def sfgIpvSpecReverseMap : StringMap := ⟨Acl.sfgIpvSpecReverseMap, 9, rfl, rfl, rfl, rfl⟩

def psfpAgsMap : StringMap := ⟨[("0", "closed"), ("1", "open")], 2, rfl, rfl, rfl, rfl⟩

def psfpAgsReverseMap : StringMap := ⟨Acl.psfpAgsReverseMap, 2, rfl, rfl, rfl, rfl⟩

def componentTypeMap : StringMap :=
  ⟨[("3", "c-vlan-component"), ("4", "s-vlan-component"), ("5", "d-bridge-component"), ("6", "edge-relay-component")],
    4, rfl, rfl, rfl, rfl⟩

/-- Declared for four pairs. -/
def bridgeTypeMap : StringMap := ⟨[("3", "customer-vlan-bridge")], 4, rfl, rfl, rfl, rfl⟩

/-! ## The tables of the agent -/

def portStateMap : StringMap :=
  ⟨[("disabled", "1"), ("listening", "2"), ("learning", "3"), ("forwarding", "4"), ("blocking", "5"),
    ("discarding", "6")], 6, rfl, rfl, rfl, rfl⟩

def portRoleMap : StringMap :=
  ⟨[("Disabled", "0"), ("Root", "1"), ("Alternate", "2"), ("Designated", "3"), ("Backup", "4")], 5, rfl, rfl, rfl, rfl⟩

def truthValueMap : StringMap := ⟨[("yes", "1"), ("no", "2")], 2, rfl, rfl, rfl, rfl⟩

def p2pMap : StringMap := ⟨[("yes", "1"), ("no", "2"), ("auto", "3")], 3, rfl, rfl, rfl, rfl⟩

def p2pMapInverse : StringMap := ⟨[("1", "yes"), ("2", "no"), ("3", "auto")], 3, rfl, rfl, rfl, rfl⟩

/-! ## What they translate -/

inductive MapName where
  | activeMap | algorithmMap | cbSidTypeMap | streamTaggedMap | streamTaggedReverseMap | portIdSubtypeMap
  | chassisIdSubtypeMap | trueFalseMap | macMergeEnableMap | mergeSupportMap | verifyStatusMap | statusTxMap
  | schedGclMap | schedOpNameMap | qBridgePortTypeMap | qBridgeAcceptableFrameMap | ethSpeedMapCb | ifEnableMap
  | ifXmlEnableMap | interfaceSpeedMap | sfgPrioSpecMap | sfgPrioSpecReverseMap | sfgIpvSpecMap
  | sfgIpvSpecReverseMap | psfpAgsMap | psfpAgsReverseMap | componentTypeMap | bridgeTypeMap | portStateMap
  | portRoleMap | truthValueMap | p2pMap | p2pMapInverse
  deriving DecidableEq

def MapName.map : MapName → StringMap
  | activeMap => Maps.activeMap
  | algorithmMap => Maps.algorithmMap
  | cbSidTypeMap => Maps.cbSidTypeMap
  | streamTaggedMap => Maps.streamTaggedMap
  | streamTaggedReverseMap => Maps.streamTaggedReverseMap
  | portIdSubtypeMap => Maps.portIdSubtypeMap
  | chassisIdSubtypeMap => Maps.chassisIdSubtypeMap
  | trueFalseMap => Maps.trueFalseMap
  | macMergeEnableMap => Maps.macMergeEnableMap
  | mergeSupportMap => Maps.mergeSupportMap
  | verifyStatusMap => Maps.verifyStatusMap
  | statusTxMap => Maps.statusTxMap
  | schedGclMap => Maps.schedGclMap
  | schedOpNameMap => Maps.schedOpNameMap
  | qBridgePortTypeMap => Maps.qBridgePortTypeMap
  | qBridgeAcceptableFrameMap => Maps.qBridgeAcceptableFrameMap
  | ethSpeedMapCb => Maps.ethSpeedMapCb
  | ifEnableMap => Maps.ifEnableMap
  | ifXmlEnableMap => Maps.ifXmlEnableMap
  | interfaceSpeedMap => Maps.interfaceSpeedMap
  | sfgPrioSpecMap => Maps.sfgPrioSpecMap
  | sfgPrioSpecReverseMap => Maps.sfgPrioSpecReverseMap
  | sfgIpvSpecMap => Maps.sfgIpvSpecMap
  | sfgIpvSpecReverseMap => Maps.sfgIpvSpecReverseMap
  | psfpAgsMap => Maps.psfpAgsMap
  | psfpAgsReverseMap => Maps.psfpAgsReverseMap
  | componentTypeMap => Maps.componentTypeMap
  | bridgeTypeMap => Maps.bridgeTypeMap
  | portStateMap => Maps.portStateMap
  | portRoleMap => Maps.portRoleMap
  | truthValueMap => Maps.truthValueMap
  | p2pMap => Maps.p2pMap
  | p2pMapInverse => Maps.p2pMapInverse

/-- A map that there is in both directions. -/
inductive TwoWay where
  | prioSpec | ipvSpec | ags | streamTagged | p2p

def TwoWay.forward : TwoWay → StringMap
  | prioSpec => sfgPrioSpecMap
  | ipvSpec => sfgIpvSpecMap
  | ags => psfpAgsMap
  | streamTagged => streamTaggedMap
  | p2p => p2pMap

def TwoWay.reverse : TwoWay → StringMap
  | prioSpec => sfgPrioSpecReverseMap
  | ipvSpec => sfgIpvSpecReverseMap
  | ags => psfpAgsReverseMap
  | streamTagged => streamTaggedReverseMap
  | p2p => p2pMapInverse

/-- The maps that end by a pair of their own. -/
theorem ended_iff (name : MapName) :
    name.map.Ended ↔ name = .verifyStatusMap ∨ name = .ifXmlEnableMap ∨ name = .bridgeTypeMap := by
  rw [StringMap.ended_iff_blank]
  cases name <;> decide

theorem TwoWay.inverts (pair : TwoWay) : pair.forward.Inverts pair.reverse := by
  cases pair <;> exact StringMap.inverts_of_lookup (by decide) (by decide)

/-- **A text that is no key is translated as it should where the map ends by
a pair of its own, and the empty text nowhere. What there is in both
directions is undone by its reverse.** -/
theorem translates_iff (name : MapName) (behind : List StringPair) (value : String) (pair : TwoWay) :
    (name.map.Translates behind value ↔
        value ≠ "" ∧ (value ∈ name.map.keys ∨ name = .verifyStatusMap ∨ name = .ifXmlEnableMap ∨
          name = .bridgeTypeMap)) ∧
      pair.forward.Inverts pair.reverse := by
  refine ⟨?_, pair.inverts⟩
  rw [StringMap.translates_iff_known, ended_iff]

/-- The speed of an interface that is down, and an interface without flags. -/
theorem not_translates_unknown :
    ¬ interfaceSpeedMap.Translates [] "Unknown!" ∧ ¬ ifXmlEnableMap.Translates [] "" := by
  rw [StringMap.translates_iff_known, StringMap.translates_iff_known]
  decide

/-- The translation of the edits is this one for what the map knows. -/
theorem translate_eq (m : StringMap) (behind : List StringPair) {value : String}
    (h : value = "" ∨ value ∈ m.keys ∨ m.Ended) :
    ((m.translate behind value).bind fun t => if t.ret = EXIT_SUCCESS then some t.value else none) =
      Acl.translateSingleStringUsingMap value m.entries := by
  rw [Acl.translateSingleStringUsingMap]
  by_cases hvalue : value = ""
  · subst hvalue
    rw [StringMap.translate_empty, if_pos rfl]
    rfl
  rw [if_neg hvalue]
  by_cases hkey : value ∈ m.keys
  · obtain ⟨new, i, hlookup, -, ht⟩ := StringMap.translate_key hvalue hkey behind
    rw [ht, Option.bind_some, if_pos rfl]
    exact hlookup.symm
  · obtain ⟨i, -, ht⟩ := StringMap.translate_unknown hvalue hkey ((h.resolve_left hvalue).resolve_left hkey) behind
    have hnone : m.entries.find? (fun pair => pair.1 = value) = none :=
      List.find?_eq_none.2 fun pair hpair heq => hkey (List.mem_map.2 ⟨pair, hpair, of_decide_eq_true heq⟩)
    rw [ht, Option.bind_some, if_neg (show EXIT_FAILURE ≠ EXIT_SUCCESS by decide), hnone]
    rfl

end TsnSwitch.Sysrepo.Maps
