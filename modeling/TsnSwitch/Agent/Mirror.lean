/-
When a load makes the table of the agent mirror the system.

A load never compares a row with the system: it drops the rows whose index is
zero and takes every other one to exist still. It also stops after
`MAX_NUM_OF_INTERFACES` names, and it refreshes a bridge port from the port that
has the interface index the row was last given. So rows that are gone stay, and
entries beyond the bound are missing (`tables_mirror_iff`).
-/
import TsnSwitch.Agent.Tables

namespace TsnSwitch.Agent

variable {V : Type} {src : Source V}

/-- The entries of the system, and what is read for each: none if that fails. -/
abbrev Entries (V : Type) := List (Key × Option V)

/-- One row for each entry, with the values that are read, and no other. -/
structure Mirrors (es : Entries V) (rows : Rows V) : Prop where
  exact : ∀ row ∈ rows, ∃ e, row = some e ∧ (e.key, some e.values) ∈ es
  every : ∀ p ∈ es, ∃ e, some e ∈ rows ∧ e.key = p.1 ∧ p.2 = some e.values
  once : (keys rows).Nodup

/-- A row that the load does not drop. -/
def Stays (rows : Rows V) (e : Entry V) : Prop := some e ∈ rows ∧ e.componentId ≠ 0 ∧ e.index ≠ 0

/-- The old rows are of entries that still exist, and the entries are among the
names that are looked at or have a row already. Each can be read, and memory
can be had. -/
structure Settled (src : Source V) (names : List String) (es : Entries V) (rows : Rows V) : Prop where
  noNull : none ∉ rows
  current : ∀ e, Stays rows e → ∃ p ∈ es, p.1 = e.key
  located : ∀ name ∈ visible names, ∃ p ∈ es, src.locate name = some p.1
  inReach : ∀ p ∈ es, (∃ e, Stays rows e ∧ e.key = p.1) ∨ ∃ name ∈ visible names, src.locate name = some p.1
  readable : ∀ p ∈ es, p.2 ≠ none
  allocated : ∀ name ∈ visible names, ∀ key, src.locate name = some key →
    (∃ e, Stays rows e ∧ e.key = key) ∨ src.alloc key = true

/-! ## The two loops -/

theorem mem_keys {rows : Rows V} {key : Key} : key ∈ keys rows ↔ ∃ e, some e ∈ rows ∧ e.key = key := by
  simp only [keys, List.mem_filterMap, Option.map_eq_some_iff]
  exact ⟨fun ⟨_, hr, e, he, hk⟩ => ⟨e, he ▸ hr, hk⟩, fun ⟨e, he, hk⟩ => ⟨_, he, e, rfl, hk⟩⟩

/-- The row after the first loop. -/
def keptRow (src : Source V) (row : Option (Entry V)) : Option (Option (Entry V)) :=
  row.bind fun e =>
    if e.componentId = 0 ∨ e.index = 0 then none else some (some { e with values := src.refresh e.key e.values })

def kept (src : Source V) (rows : Rows V) : Rows V := rows.filterMap (keptRow src)

theorem mem_kept {rows : Rows V} {row : Option (Entry V)} :
    row ∈ kept src rows ↔ ∃ e, Stays rows e ∧ row = some { e with values := src.refresh e.key e.values } := by
  simp only [kept, List.mem_filterMap, keptRow, Option.bind_eq_some_iff, Option.ite_none_left_eq_some,
    Option.some.injEq, not_or]
  constructor
  · rintro ⟨_, hr, e, rfl, hne, he⟩
    exact ⟨e, ⟨hr, hne⟩, he.symm⟩
  · rintro ⟨e, ⟨hr, hne⟩, rfl⟩
    exact ⟨some e, hr, e, rfl, hne, rfl⟩

theorem mem_keys_kept {rows : Rows V} {key : Key} :
    key ∈ keys (kept src rows) ↔ ∃ e, Stays rows e ∧ e.key = key := by
  rw [mem_keys]
  constructor
  · rintro ⟨e', he', rfl⟩
    obtain ⟨e, hs, he⟩ := mem_kept.1 he'
    obtain rfl := Option.some.inj he
    exact ⟨e, hs, rfl⟩
  · rintro ⟨e, hs, rfl⟩
    exact ⟨_, mem_kept.2 ⟨e, hs, rfl⟩, rfl⟩

theorem kept_cons (e : Entry V) (rows : Rows V) :
    kept src (some e :: rows) =
      if e.componentId = 0 ∨ e.index = 0 then kept src rows
      else some { e with values := src.refresh e.key e.values } :: kept src rows := by
  split
  · rename_i hz
    exact List.filterMap_cons_none (if_pos hz)
  · rename_i hz
    exact List.filterMap_cons_some (if_neg hz)

theorem nodup_kept {rows : Rows V} (h : (keys rows).Nodup) : (keys (kept src rows)).Nodup := by
  refine h.sublist ?_
  clear h
  induction rows with
  | nil => exact List.Sublist.refl _
  | cons row rows ih =>
    cases row with
    | none => exact ih
    | some e =>
      rw [kept_cons]
      split
      · exact ih.cons _
      · exact ih.cons_cons _

/-- **The first loop ends exactly when every row has data.** -/
theorem refreshLoop_iff {rows rows' : Rows V} :
    (∃ fuel, refreshLoop src fuel rows = some rows') ↔ none ∉ rows ∧ rows' = kept src rows := by
  constructor
  · rintro ⟨fuel, h⟩
    induction fuel generalizing rows rows' with
    | zero => exact nomatch h
    | succ fuel ih =>
      cases rows with
      | nil =>
        obtain rfl := Option.some.inj h
        exact ⟨(fun hm => nomatch hm), rfl⟩
      | cons row rows =>
        cases row with
        | none => exact ih h
        | some e =>
          obtain ⟨rest, hrest, rfl⟩ := Option.map_eq_some_iff.1 h
          obtain ⟨hnone, rfl⟩ := ih hrest
          refine ⟨fun hm => (List.mem_cons.1 hm).elim (fun he => nomatch he) hnone, ?_⟩
          exact (kept_cons e rows).symm
  · rintro ⟨hnone, rfl⟩
    induction rows with
    | nil => exact ⟨1, rfl⟩
    | cons row rows ih =>
      cases row with
      | none => exact absurd (List.mem_cons_self ..) hnone
      | some e =>
        obtain ⟨fuel, hf⟩ := ih fun hm => hnone (List.mem_cons_of_mem _ hm)
        exact ⟨fuel + 1, by rw [refreshLoop, hf, Option.map_some, kept_cons]⟩

/-! ## The second loop -/

/-- The loop over the names that are looked at. -/
def addAll (src : Source V) : List String → Rows V → Option (Int × Rows V)
  | [], rows => some (0, rows)
  | name :: names, rows =>
    match src.locate name with
    | none => some (1, rows)
    | some key =>
      if key ∈ keys rows then addAll src names rows
      else if src.alloc key then addAll src names (rows ++ [some ⟨key.1, key.2, src.create name key⟩])
      else none

theorem addLoop_eq (n : Nat) (names : List String) (rows : Rows V) :
    addLoop src n names rows = addAll src ((names.take n).takeWhile fun name => name ≠ "") rows := by
  induction names generalizing n rows with
  | nil => cases n <;> rfl
  | cons name names ih =>
    cases n with
    | zero => rfl
    | succ n =>
      rw [List.take_succ_cons]
      by_cases hname : name = ""
      · rw [List.takeWhile_cons_of_neg (by simpa using hname), addLoop, if_pos hname]
        rfl
      · rw [List.takeWhile_cons_of_pos (by simpa using hname), addLoop, if_neg hname, addAll]
        cases src.locate name with
        | none => rfl
        | some key => exact congrArg₂ (ite _) (ih ..) (congrArg₂ (ite _) (ih ..) rfl)

theorem keys_append (rows rows' : Rows V) : keys (rows ++ rows') = keys rows ++ keys rows' := List.filterMap_append

/-- What is added to the rows. -/
structure Added (src : Source V) (names : List String) (rows rows' : Rows V) : Prop where
  kept : rows ⊆ rows'
  new : ∀ row ∈ rows', row ∈ rows ∨ ∃ name ∈ names, ∃ key, src.locate name = some key ∧ key ∉ keys rows ∧
    row = some ⟨key.1, key.2, src.create name key⟩
  reached : ∀ name ∈ names, ∀ key, src.locate name = some key → key ∈ keys rows'
  once : (keys rows).Nodup → (keys rows').Nodup

/-- The row of a located name is there already. -/
theorem Added.skip {name : String} {names : List String} {key : Key} {rows rows' : Rows V}
    (h : Added src names rows rows') (hloc : src.locate name = some key) (hkey : key ∈ keys rows) :
    Added src (name :: names) rows rows' := by
  refine ⟨h.kept, fun row hr => (h.new row hr).imp_right ?_, fun name' hn key' hk => ?_, h.once⟩
  · rintro ⟨name', hn, hrest⟩
    exact ⟨name', List.mem_cons_of_mem _ hn, hrest⟩
  · rcases List.mem_cons.1 hn with rfl | hn
    · obtain rfl := Option.some.inj (hloc.symm.trans hk)
      obtain ⟨e, he, rfl⟩ := mem_keys.1 hkey
      exact mem_keys.2 ⟨e, h.kept he, rfl⟩
    · exact h.reached name' hn key' hk

theorem keys_push (src : Source V) (rows : Rows V) (name : String) (key : Key) :
    keys (rows ++ [some ⟨key.1, key.2, src.create name key⟩]) = keys rows ++ [key] := keys_append ..

/-- It is appended. -/
theorem Added.push {name : String} {names : List String} {key : Key} {rows rows' : Rows V}
    (h : Added src names (rows ++ [some ⟨key.1, key.2, src.create name key⟩]) rows')
    (hloc : src.locate name = some key) (hkey : key ∉ keys rows) : Added src (name :: names) rows rows' := by
  have hkeys := keys_push src rows name key
  refine ⟨fun row hr => h.kept (List.mem_append_left _ hr), fun row hr => ?_, fun name' hn key' hk => ?_,
    fun hn => h.once ?_⟩
  · rcases h.new row hr with hr | ⟨name', hn, key', hk, hnew, he⟩
    · rcases List.mem_append.1 hr with hr | hr
      · exact .inl hr
      · exact .inr ⟨name, List.mem_cons_self .., key, hloc, hkey, List.mem_singleton.1 hr⟩
    · refine .inr ⟨name', List.mem_cons_of_mem _ hn, key', hk, fun hm => hnew ?_, he⟩
      exact hkeys ▸ List.mem_append_left _ hm
  · rcases List.mem_cons.1 hn with rfl | hn
    · obtain rfl := Option.some.inj (hloc.symm.trans hk)
      exact mem_keys.2 ⟨_, h.kept (List.mem_append_right _ (List.mem_singleton_self _)), rfl⟩
    · exact h.reached name' hn key' hk
  · rw [hkeys]
    exact List.nodup_append.2 ⟨hn, List.nodup_singleton _, fun a ha b hb he =>
      hkey (List.mem_singleton.1 hb ▸ he ▸ ha)⟩

/-- **The second loop succeeds exactly when every name is found, and memory can be
had for each row that is missing.** -/
theorem addAll_spec (names : List String) (rows : Rows V) :
    ((∃ rows', addAll src names rows = some (0, rows')) ↔
        ∀ name ∈ names, ∃ key, src.locate name = some key ∧ (key ∈ keys rows ∨ src.alloc key = true)) ∧
      ∀ rows', addAll src names rows = some (0, rows') → Added src names rows rows' := by
  induction names generalizing rows with
  | nil =>
    refine ⟨iff_of_true ⟨rows, rfl⟩ (fun _ h => nomatch h), fun rows' h => ?_⟩
    obtain ⟨-, rfl⟩ := Prod.mk.inj (Option.some.inj h)
    exact ⟨List.Subset.refl _, fun row h => .inl h, (fun _ h => nomatch h), id⟩
  | cons name names ih =>
    rw [List.forall_mem_cons]
    cases hloc : src.locate name with
    | none =>
      have hadd : addAll src (name :: names) rows = some (1, rows) := by rw [addAll, hloc]
      have hfail : ∀ rows', addAll src (name :: names) rows ≠ some (0, rows') := fun rows' h =>
        absurd (Prod.mk.inj (Option.some.inj (hadd.symm.trans h))).1 (by decide)
      exact ⟨iff_of_false (fun ⟨rows', h⟩ => hfail rows' h) (fun ⟨⟨_, h, _⟩, _⟩ => nomatch h),
        fun rows' h => absurd h (hfail rows')⟩
    | some key =>
      by_cases hkey : key ∈ keys rows
      · have hadd : addAll src (name :: names) rows = addAll src names rows := by
          rw [addAll, hloc]
          exact if_pos hkey
        rw [hadd]
        obtain ⟨hiff, hspec⟩ := ih rows
        exact ⟨hiff.trans ⟨fun h => ⟨⟨key, rfl, .inl hkey⟩, h⟩, fun h => h.2⟩,
          fun rows' h => (hspec rows' h).skip hloc hkey⟩
      · cases halloc : src.alloc key with
        | false =>
          have hadd : addAll src (name :: names) rows = none := by
            rw [addAll, hloc]
            simp only [hkey, halloc, if_false, Bool.false_eq_true]
          rw [hadd]
          refine ⟨iff_of_false (fun ⟨_, h⟩ => nomatch h) ?_, fun _ h => nomatch h⟩
          rintro ⟨⟨key', h, hor⟩, -⟩
          obtain rfl := Option.some.inj h
          exact hor.elim hkey fun h => Bool.false_ne_true (halloc.symm.trans h)
        | true =>
          have hadd : addAll src (name :: names) rows =
              addAll src names (rows ++ [some ⟨key.1, key.2, src.create name key⟩]) := by
            rw [addAll, hloc]
            simp only [hkey, halloc, if_false, if_true]
          rw [hadd]
          obtain ⟨hiff, hspec⟩ := ih (rows ++ [some ⟨key.1, key.2, src.create name key⟩])
          rw [keys_push] at hiff
          refine ⟨hiff.trans ⟨fun h => ⟨⟨key, rfl, .inr halloc⟩, fun n hn => ?_⟩, fun h n hn => ?_⟩,
            fun rows' h => (hspec rows' h).push hloc hkey⟩
          · obtain ⟨key', hk, hor⟩ := h n hn
            refine ⟨key', hk, hor.elim (fun hm => ?_) .inr⟩
            rcases List.mem_append.1 hm with hm | hm
            · exact .inl hm
            · exact .inr (List.mem_singleton.1 hm ▸ halloc)
          · obtain ⟨key', hk, hor⟩ := h.2 n hn
            exact ⟨key', hk, hor.imp_left (List.mem_append_left _)⟩

theorem load_iff {names : List String} {rows rows' : Rows V} :
    (∃ fuel, load src fuel names rows = some (0, rows')) ↔
      none ∉ rows ∧ addAll src (visible names) (kept src rows) = some (0, rows') := by
  simp only [load, Option.bind_eq_some_iff, addLoop_eq]
  constructor
  · rintro ⟨fuel, rows'', hr, ha⟩
    obtain ⟨hn, rfl⟩ := refreshLoop_iff.1 ⟨fuel, hr⟩
    exact ⟨hn, ha⟩
  · rintro ⟨hn, ha⟩
    obtain ⟨fuel, hr⟩ := refreshLoop_iff.2 ⟨hn, rfl⟩
    exact ⟨fuel, _, hr, ha⟩

/-- **A load mirrors the system exactly when the table and the names are settled
and each row that stays is refreshed from its own entry.** -/
theorem load_mirrors_iff {names : List String} {es : Entries V} (t : Tdata V)
    (hfun : ∀ k v v', (k, v) ∈ es → (k, v') ∈ es → v = v')
    (hcreate : ∀ name ∈ visible names, ∀ k v, src.locate name = some k → (k, some v) ∈ es → src.create name k = v) :
    (∃ fuel rows', load src fuel names t.rows = some (0, rows') ∧ Mirrors es rows') ↔
      Settled src names es t.rows ∧
        ∀ e v, Stays t.rows e → (e.key, some v) ∈ es → src.refresh e.key e.values = v := by
  obtain ⟨hiff, hspec⟩ := @addAll_spec V src (visible names) (kept src t.rows)
  have hload : (∃ fuel rows', load src fuel names t.rows = some (0, rows') ∧ Mirrors es rows') ↔
      none ∉ t.rows ∧ ∃ rows', addAll src (visible names) (kept src t.rows) = some (0, rows') ∧ Mirrors es rows' := by
    constructor
    · rintro ⟨fuel, rows', hl, hm⟩
      obtain ⟨hn, ha⟩ := load_iff.1 ⟨fuel, hl⟩
      exact ⟨hn, rows', ha, hm⟩
    · rintro ⟨hn, rows', ha, hm⟩
      obtain ⟨fuel, hl⟩ := load_iff.2 ⟨hn, ha⟩
      exact ⟨fuel, rows', hl, hm⟩
  rw [hload]
  constructor
  · rintro ⟨hnone, rows', hadd, hm⟩
    have ha := hspec rows' hadd
    have hkeyed : ∀ key, key ∈ keys rows' → ∃ v, (key, some v) ∈ es := by
      intro key hk
      obtain ⟨e, he, rfl⟩ := mem_keys.1 hk
      obtain ⟨e', he', hin⟩ := hm.exact _ he
      obtain rfl := Option.some.inj he'
      exact ⟨_, hin⟩
    have hstays : ∀ e, Stays t.rows e → (e.key, some (src.refresh e.key e.values)) ∈ es := by
      intro e hs
      obtain ⟨e', he', hin⟩ := hm.exact _ (ha.kept (mem_kept.2 ⟨e, hs, rfl⟩))
      obtain rfl := Option.some.inj he'
      exact hin
    refine ⟨⟨hnone, fun e hs => ⟨_, hstays e hs, rfl⟩, fun name hn => ?_, fun p hp => ?_, fun p hp => ?_,
      fun name hn key hk => ?_⟩, fun e v hs hv => Option.some.inj (hfun _ _ _ (hstays e hs) hv)⟩
    · obtain ⟨key, hk, -⟩ := hiff.1 ⟨rows', hadd⟩ name hn
      obtain ⟨v, hv⟩ := hkeyed key (ha.reached name hn key hk)
      exact ⟨_, hv, hk⟩
    · obtain ⟨e, he, hk, -⟩ := hm.every p hp
      rcases ha.new _ he with he | ⟨name, hn, key, hloc, -, heq⟩
      · exact .inl (mem_keys_kept.1 (mem_keys.2 ⟨e, he, hk⟩))
      · obtain rfl := Option.some.inj heq
        exact .inr ⟨name, hn, hloc.trans (congrArg some hk)⟩
    · obtain ⟨e, -, -, hv⟩ := hm.every p hp
      rw [hv]
      exact Option.some_ne_none _
    · obtain ⟨key', hk', hor⟩ := hiff.1 ⟨rows', hadd⟩ name hn
      obtain rfl := Option.some.inj (hk.symm.trans hk')
      exact hor.imp_left mem_keys_kept.1
  · rintro ⟨hs, hrefresh⟩
    have hfind : ∀ name ∈ visible names, ∃ key, src.locate name = some key ∧
        (key ∈ keys (kept src t.rows) ∨ src.alloc key = true) := by
      intro name hn
      obtain ⟨p, -, hk⟩ := hs.located name hn
      exact ⟨p.1, hk, (hs.allocated name hn p.1 hk).imp_left mem_keys_kept.2⟩
    obtain ⟨rows', hadd⟩ := hiff.2 hfind
    have ha := hspec rows' hadd
    have hread : ∀ p ∈ es, ∃ v, (p.1, some v) ∈ es := by
      intro p hp
      obtain ⟨v, hv⟩ := Option.ne_none_iff_exists'.1 (hs.readable p hp)
      exact ⟨v, hv ▸ hp⟩
    have hexact : ∀ row ∈ rows', ∃ e, row = some e ∧ (e.key, some e.values) ∈ es := by
      intro row hr
      rcases ha.new row hr with hr | ⟨name, hn, key, hloc, -, rfl⟩
      · obtain ⟨e, hst, rfl⟩ := mem_kept.1 hr
        obtain ⟨p, hp, hk⟩ := hs.current e hst
        obtain ⟨v, hv⟩ := hread p hp
        rw [hk] at hv
        refine ⟨_, rfl, ?_⟩
        rw [hrefresh e v hst hv]
        exact hv
      · obtain ⟨p, hp, hk⟩ := hs.located name hn
        obtain rfl := Option.some.inj (hloc.symm.trans hk)
        obtain ⟨v, hv⟩ := hread p hp
        refine ⟨_, rfl, ?_⟩
        rw [hcreate name hn p.1 v hloc hv]
        exact hv
    refine ⟨hs.noNull, rows', hadd, hexact, fun p hp => ?_, ha.once (nodup_kept t.unique)⟩
    have hk : p.1 ∈ keys rows' := by
      rcases hs.inReach p hp with ⟨e, hst, hk⟩ | ⟨name, hn, hk⟩
      · exact mem_keys.2 ⟨_, ha.kept (mem_kept.2 ⟨e, hst, rfl⟩), hk⟩
      · exact ha.reached name hn p.1 hk
    obtain ⟨e, he, hke⟩ := mem_keys.1 hk
    obtain ⟨e', he', hin⟩ := hexact _ he
    obtain rfl := Option.some.inj he'
    exact ⟨e, he, hke, hfun p.1 _ _ hp (hke ▸ hin)⟩

/-- Where a row is refreshed and created with what the system answers for its key,
only the table and the names have to be settled. -/
theorem load_answers_iff {names : List String} {es : Entries V} (t : Tdata V) (read : Key → Option V)
    (hread : ∀ k v, (k, v) ∈ es → v = read k) (hrefresh : ∀ k old v, read k = some v → src.refresh k old = v)
    (hcreate : ∀ name k v, read k = some v → src.create name k = v) :
    (∃ fuel rows', load src fuel names t.rows = some (0, rows') ∧ Mirrors es rows') ↔ Settled src names es t.rows := by
  rw [load_mirrors_iff t fun k v v' h h' => (hread k v h).trans (hread k v' h').symm]
  · exact ⟨fun h => h.1, fun h => ⟨h, fun e v _ hv => hrefresh _ _ _ (hread _ _ hv).symm⟩⟩
  · exact fun name _ k v _ hv => hcreate name k v (hread _ _ hv).symm

/-- Entries that are numbered by their names. -/
theorem mem_numbered {ids : List String} {read : Nat → Option V} {k : Key} {v : Option V}
    (h : (k, v) ∈ ids.map fun id => ((1, strtoul id), read (strtoul id))) : v = read k.2 := by
  obtain ⟨id, -, he⟩ := List.mem_map.1 h
  obtain ⟨rfl, rfl⟩ := Prod.mk.inj he
  rfl

/-! ## MST instances -/

/-- All the instances of the bridge. -/
def MstpSystem.ids (sys : MstpSystem) : Option (List String) := sys.bridgesName.bind fun names => sys.mstpIds (bridgeOf names)

/-- What the system answers for an instance. -/
def MstpSystem.read (sys : MstpSystem) (mstpId : Nat) : Option MstpValues := do
  let bridgeId ← sys.bridgeId sys.bridge (tmpMstpId mstpId)
  let time ← sys.timeSinceTopChange sys.bridge (tmpMstpId mstpId)
  let changes ← sys.topChanges sys.bridge (tmpMstpId mstpId)
  let root ← sys.designatedRoot sys.bridge
  let cost ← sys.rootPathCost sys.bridge (tmpMstpId mstpId)
  let port ← sys.rootPort sys.bridge (tmpMstpId mstpId)
  let priority ← sys.bridgePriority sys.bridge (tmpMstpId mstpId)
  some ⟨bridgeId, strtoul time, strtoul changes, root, cLong cost, strtoul port, cLong priority⟩

def MstpSystem.entries (sys : MstpSystem) : Entries MstpValues :=
  (sys.ids.getD []).map fun id => ((1, strtoul id), sys.read (strtoul id))

theorem mstp_fill {sys : MstpSystem} {mstpId : Nat} {v : MstpValues} (h : sys.read mstpId = some v) (old : MstpValues) :
    ieee8021MstpTableFillEntry sys sys.bridge mstpId old = (0, v) := by
  simp only [MstpSystem.read, Option.bind_eq_bind, Option.bind_eq_some_iff] at h
  obtain ⟨_, h1, _, h2, _, h3, _, h4, _, h5, _, h6, _, h7, hv⟩ := h
  obtain rfl := Option.some.inj hv
  simp only [ieee8021MstpTableFillEntry, fill, h1, h2, h3, h4, h5, h6, h7, Option.map_some]

theorem mstp_load (sys : MstpSystem) (alloc : Key → Bool) (fuel : Nat) (rows : Rows MstpValues) :
    ieee8021MstpTableLoad sys alloc fuel rows =
      match sys.ids with
      | none => some (1, rows)
      | some ids => load (ieee8021MstpSource sys alloc) fuel (ids.take MAX_NUM_OF_INTERFACES) rows := by
  unfold ieee8021MstpTableLoad MstpSystem.ids
  cases sys.bridgesName <;> rfl

/-- A load that returns an error. -/
theorem not_loaded {rows : Rows V} {es : Entries V} :
    ¬ ∃ (_ : Nat) (rows' : Rows V), some ((1 : Int), rows) = some (0, rows') ∧ Mirrors es rows' := by
  rintro ⟨_, rows', h, -⟩
  exact absurd (Prod.mk.inj (Option.some.inj h)).1 (by decide)

theorem mstp_mirrors_iff (sys : MstpSystem) (alloc : Key → Bool) (t : Tdata MstpValues) :
    (∃ fuel rows, ieee8021MstpTableLoad sys alloc fuel t.rows = some (0, rows) ∧ Mirrors sys.entries rows) ↔
      ∃ ids, sys.ids = some ids ∧
        Settled (ieee8021MstpSource sys alloc) (ids.take MAX_NUM_OF_INTERFACES) sys.entries t.rows := by
  simp only [mstp_load]
  cases hids : sys.ids with
  | none => exact iff_of_false not_loaded fun ⟨_, h, _⟩ => nomatch h
  | some ids =>
    simp only [Option.some.injEq, exists_eq_left']
    exact load_answers_iff t (fun k => sys.read k.2) (fun k v => mem_numbered)
      (fun k old v h => congrArg Prod.snd (mstp_fill h old)) fun name k v h => congrArg Prod.snd (mstp_fill h _)

/-! ## Bridge VLANs -/

/-- What the system answers for a VLAN. With no port nothing is read. -/
def VlanSystem.read (sys : VlanSystem) (vlanIndex : Nat) : Option VlanValues := do
  let ports ← sys.portNames
  if visible ports = [] then none
  else some ⟨sys.bridge, portBits (fun port => sys.egress port (toString vlanIndex)) ports "",
    portBits (fun port => sys.untagged port (toString vlanIndex)) ports ""⟩

def VlanSystem.entries (sys : VlanSystem) : Entries VlanValues :=
  (sys.vids.getD []).map fun id => ((1, strtoul id), sys.read (strtoul id))

theorem portBits_eq {ports : List String} (h : visible ports ≠ []) (isMember : String → Bool) (old : String) :
    portBits isMember ports old = portBits isMember ports "" := by
  unfold portBits
  cases hv : visible ports with
  | nil => exact absurd hv h
  | cons port rest => rfl

theorem vlan_fill {sys : VlanSystem} {vlanIndex : Nat} {v : VlanValues} (h : sys.read vlanIndex = some v)
    (old : VlanValues) : ieee8021QBridgeVlanStaticTableFillEntry sys sys.bridge vlanIndex old = (0, v) := by
  simp only [VlanSystem.read, Option.bind_eq_bind, Option.bind_eq_some_iff] at h
  obtain ⟨ports, hports, h⟩ := h
  split at h
  · exact nomatch h
  · rename_i hvis
    obtain rfl := Option.some.inj h
    simp only [ieee8021QBridgeVlanStaticTableFillEntry, fill, hports, Option.map_some]
    rw [portBits_eq hvis _ old.egressPorts, portBits_eq hvis _ old.untaggedPorts]

theorem vlan_mirrors_iff (sys : VlanSystem) (alloc : Key → Bool) (t : Tdata VlanValues) :
    (∃ fuel rows, ieee8021QBridgeVlanStaticTableLoad sys alloc fuel t.rows = some (0, rows) ∧
        Mirrors sys.entries rows) ↔
      ∃ vids, sys.bridgeNames ≠ none ∧ sys.vids = some vids ∧
        Settled (ieee8021QBridgeVlanStaticSource sys alloc) (vids ++ sys.rest) sys.entries t.rows := by
  unfold ieee8021QBridgeVlanStaticTableLoad
  cases hbridge : sys.bridgeNames with
  | none => exact iff_of_false not_loaded fun ⟨_, h, _⟩ => h rfl
  | some bridges =>
    simp only [Option.isNone_some, Bool.false_eq_true, if_false]
    cases hvids : sys.vids with
    | none => exact iff_of_false not_loaded fun ⟨_, _, h, _⟩ => nomatch h
    | some vids =>
      simp only [Option.some.injEq, ne_eq, reduceCtorEq, not_false_eq_true, true_and, exists_eq_left']
      exact load_answers_iff t (fun k => sys.read k.2) (fun k v => mem_numbered)
        (fun k old v h => congrArg Prod.snd (vlan_fill h old)) fun name k v h => congrArg Prod.snd (vlan_fill h _)

/-! ## Bridge ports -/

/-- What the system answers for a port. -/
def PortSystem.read (sys : PortSystem) (name : String) : Option PortValues := do
  let ifIndex ← sys.ifIndex name
  let admin ← (sys.adminPointToPoint sys.bridge name).bind pointToPoint
  let oper ← (sys.macEnabled sys.bridge name).bind pointToPoint
  let portType ← sys.portType name
  some ⟨cLong ifIndex, name, admin, oper, portType⟩

def PortSystem.entries (sys : PortSystem) : Entries PortValues :=
  (sys.portsName.getD []).filterMap fun name => (sys.key name).map fun key => (key, sys.read name)

/-- The interface index that a row was last given is still that of its port, or of
none, and then the row holds what is read already. -/
def OwnPorts (sys : PortSystem) (rows : Rows PortValues) : Prop :=
  ∀ e, Stays rows e → ∀ name ∈ sys.portsName.getD [], sys.key name = some e.key →
    let opened := sys.openByIndex (BitVec.ofInt 32 e.values.ifIndex)
    opened = some name ∨ opened = none ∧ sys.read name = some e.values

theorem port_fill {sys : PortSystem} {name : String} {v : PortValues} (h : sys.read name = some v) (old : PortValues) :
    ieee8021BridgeBasePortTableFillEntry sys sys.bridge name old = (0, v) := by
  simp only [PortSystem.read, Option.bind_eq_bind, Option.bind_eq_some_iff] at h
  obtain ⟨_, h1, admin, ha, oper, ho, _, h4, hv⟩ := h
  have ha' : (sys.adminPointToPoint sys.bridge name).bind pointToPoint = some admin := Option.bind_eq_some_iff.2 ha
  have ho' : (sys.macEnabled sys.bridge name).bind pointToPoint = some oper := Option.bind_eq_some_iff.2 ho
  obtain rfl := Option.some.inj hv
  simp only [ieee8021BridgeBasePortTableFillEntry, fill, h1, ha', ho', h4, Option.map_some, Option.getD_some]

/-- The name is written whatever else fails. -/
theorem port_fill_name (sys : PortSystem) (bridge name : String) (old : PortValues) :
    (ieee8021BridgeBasePortTableFillEntry sys bridge name old).2.name = name := by
  simp only [ieee8021BridgeBasePortTableFillEntry, fill]
  cases sys.portType name <;> rfl

theorem port_read_name {sys : PortSystem} {name : String} {v : PortValues} (h : sys.read name = some v) :
    v.name = name := by
  rw [← port_fill_name sys sys.bridge name {}, port_fill h]

theorem port_key_inj {sys : PortSystem} {name name' : String} {key : Key} (h : sys.key name = some key)
    (h' : sys.key name' = some key) : name = name' := by
  obtain ⟨id, hid, hk⟩ := Option.map_eq_some_iff.1 h
  obtain ⟨id', hid', hk'⟩ := Option.map_eq_some_iff.1 h'
  have hnum := (Prod.mk.inj (hk.trans hk'.symm)).2
  have heq : id = id' := (BitVec.add_left_inj 1).1 (BitVec.eq_of_toNat_eq hnum)
  exact sys.distinct name name' (by rw [hid]; exact Option.some_ne_none _) (by rw [hid, hid', heq])

theorem port_mirrors_iff (sys : PortSystem) (alloc : Key → Bool) (t : Tdata PortValues) :
    (∃ fuel rows, ieee8021BridgeBasePortTableLoad sys alloc fuel t.rows = some (0, rows) ∧
        Mirrors sys.entries rows) ↔
      ∃ names, sys.bridgesName ≠ none ∧ sys.portsName = some names ∧
        Settled (ieee8021BridgeBasePortSource sys alloc) (names.take MAX_NUM_OF_INTERFACES) sys.entries t.rows ∧
        OwnPorts sys t.rows := by
  have hmem : ∀ k v, (k, v) ∈ sys.entries ↔ ∃ name ∈ sys.portsName.getD [], sys.key name = some k ∧ sys.read name = v := by
    intro k v
    simp only [PortSystem.entries, List.mem_filterMap, Option.map_eq_some_iff, Prod.mk.injEq]
    exact ⟨fun ⟨name, hn, key, hk, he, hv⟩ => ⟨name, hn, he ▸ hk, hv⟩, fun ⟨name, hn, hk, hv⟩ => ⟨name, hn, k, hk, rfl, hv⟩⟩
  unfold ieee8021BridgeBasePortTableLoad
  cases hbridge : sys.bridgesName with
  | none => exact iff_of_false not_loaded fun ⟨_, h, _⟩ => h rfl
  | some bridges =>
    simp only [Option.isNone_some, Bool.false_eq_true, if_false]
    cases hnames : sys.portsName with
    | none => exact iff_of_false not_loaded fun ⟨_, _, h, _⟩ => nomatch h
    | some names =>
      simp only [Option.some.injEq, ne_eq, reduceCtorEq, not_false_eq_true, true_and, exists_eq_left']
      rw [load_mirrors_iff t]
      · refine and_congr_right fun hs => ⟨fun h e hst name hn hk => ?_, fun h e v hst hv => ?_⟩
        · obtain ⟨v, hv⟩ := Option.ne_none_iff_exists'.1 (hs.readable _ ((hmem e.key _).2 ⟨name, hn, hk, rfl⟩))
          have hr := h e v hst ((hmem e.key _).2 ⟨name, hn, hk, hv⟩)
          simp only [ieee8021BridgeBasePortSource] at hr
          cases hopen : sys.openByIndex (BitVec.ofInt 32 e.values.ifIndex) with
          | none =>
            rw [hopen] at hr
            exact .inr ⟨rfl, hv.trans (congrArg some hr.symm)⟩
          | some name' =>
            rw [hopen] at hr
            refine .inl (congrArg some ?_)
            rw [← port_fill_name sys sys.bridge name' e.values, ← port_read_name hv]
            exact congrArg PortValues.name hr
        · obtain ⟨name, hn, hk, hr⟩ := (hmem _ _).1 hv
          simp only [ieee8021BridgeBasePortSource]
          rcases h e hst name hn hk with ho | ⟨ho, hread⟩
          · rw [ho]
            exact congrArg Prod.snd (port_fill hr _)
          · rw [ho]
            exact Option.some.inj (hread.symm.trans hr)
      · intro k v v' h h'
        obtain ⟨name, -, hk, rfl⟩ := (hmem _ _).1 h
        obtain ⟨name', -, hk', rfl⟩ := (hmem _ _).1 h'
        rw [port_key_inj hk hk']
      · intro name _ k v hk hv
        obtain ⟨name', -, hk', hr⟩ := (hmem _ _).1 hv
        obtain rfl := port_key_inj hk hk'
        exact congrArg Prod.snd (port_fill hr _)

/-- **Each load ends with a table that mirrors the system exactly when the table
and the system are settled.** -/
theorem tables_mirror_iff (alloc : Key → Bool) :
    (∀ (sys : MstpSystem) (t : Tdata MstpValues),
      (∃ fuel rows, ieee8021MstpTableLoad sys alloc fuel t.rows = some (0, rows) ∧ Mirrors sys.entries rows) ↔
        ∃ ids, sys.ids = some ids ∧
          Settled (ieee8021MstpSource sys alloc) (ids.take MAX_NUM_OF_INTERFACES) sys.entries t.rows) ∧
    (∀ (sys : VlanSystem) (t : Tdata VlanValues),
      (∃ fuel rows, ieee8021QBridgeVlanStaticTableLoad sys alloc fuel t.rows = some (0, rows) ∧
          Mirrors sys.entries rows) ↔
        ∃ vids, sys.bridgeNames ≠ none ∧ sys.vids = some vids ∧
          Settled (ieee8021QBridgeVlanStaticSource sys alloc) (vids ++ sys.rest) sys.entries t.rows) ∧
    (∀ (sys : PortSystem) (t : Tdata PortValues),
      (∃ fuel rows, ieee8021BridgeBasePortTableLoad sys alloc fuel t.rows = some (0, rows) ∧
          Mirrors sys.entries rows) ↔
        ∃ names, sys.bridgesName ≠ none ∧ sys.portsName = some names ∧
          Settled (ieee8021BridgeBasePortSource sys alloc) (names.take MAX_NUM_OF_INTERFACES) sys.entries t.rows ∧
          OwnPorts sys t.rows) :=
  ⟨fun sys => mstp_mirrors_iff sys alloc, fun sys => vlan_mirrors_iff sys alloc, fun sys => port_mirrors_iff sys alloc⟩

/-- Instance 2 was deleted after the last load. -/
def deletedSystem : MstpSystem where
  bridgesName := some ["br0"]
  mstpIds _ := some ["1"]
  named _ _ h id hid := by
    obtain rfl := Option.some.inj h
    rw [List.mem_singleton.1 hid]
    decide
  bridgeId _ _ := some "8.000.00:80:E1:00:00:00"
  timeSinceTopChange _ _ := some "0"
  topChanges _ _ := some "0"
  designatedRoot _ := some "8.000.00:80:E1:00:00:00"
  rootPathCost _ _ := some "0"
  rootPort _ _ := some "0"
  bridgePriority _ _ := some "32768"

def deletedTable : Tdata MstpValues where
  rows := [some ⟨1, 1, {}⟩, some ⟨1, 2, {}⟩]
  unique := by decide

/-- The row of the deleted instance stays. -/
theorem not_mirrors_deleted :
    ¬ ∃ fuel rows, ieee8021MstpTableLoad deletedSystem (fun _ => true) fuel deletedTable.rows = some (0, rows) ∧
      Mirrors deletedSystem.entries rows := by
  rw [mstp_mirrors_iff]
  rintro ⟨ids, -, hs⟩
  obtain ⟨p, hp, hk⟩ := hs.current ⟨1, 2, {}⟩ ⟨List.mem_cons_of_mem _ (List.mem_singleton_self _), by decide, by decide⟩
  obtain ⟨id, hid, rfl⟩ := List.mem_map.1 hp
  obtain rfl : id = "1" := List.mem_singleton.1 hid
  exact absurd (Prod.mk.inj hk).2 (by decide)

end TsnSwitch.Agent
