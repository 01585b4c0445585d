import RagQs.Txn.Footprint
import RagQs.Usage.BillingGroup

/-!
# What the sources of a group have in common

The key of a group is made of eight texts with `:` between them, and four of these are names
the provider chooses.  Sources are of one group exactly when their texts, cut at every `:`, give
the same pieces.

## Main definitions

* `GroupScope` — what a group is for.
* `pieces` — the texts of a scope, cut at every `:`.
* `Unmixed` — sources of one group have one scope.

## Main results

* `groups_unmixed` — the groups are unmixed exactly when the scopes of the grouped sources can be
  told apart by their pieces.
* `unmixed_of_plain` — which is so when no name has a `:`.
* `groups_mixed` — two sources of one group with different accounts.
-/

namespace RagQs.Usage.Billing

open Txn List Option Store

variable {groupId : String} {token : Token} {at_ : Moment}

/-! ### Joined texts -/

section Joined

variable {α : Type} [DecidableEq α] {a : α}

theorem splitOn_intercalate_cons (x : List α) (xs : List (List α)) :
    ([a].intercalate (x :: xs)).splitOn a = (x :: xs).flatMap (splitOn a) := by
  induction xs generalizing x with
  | nil => simp [intercalate]
  | cons y ys ih =>
    have hjoin : [a].intercalate (x :: y :: ys) = x ++ a :: [a].intercalate (y :: ys) := by
      simp [intercalate]
    rw [hjoin, splitOn_append_cons_self, ih, flatMap_cons (x := x)]

theorem splitOn_inj {x y : List α} : x.splitOn a = y.splitOn a ↔ x = y := by
  constructor
  · intro h
    have hx : [a].intercalate (x.splitOn a) = x := intercalate_splitOn a
    rw [h, intercalate_splitOn] at hx
    exact hx.symm
  · rintro rfl
    rfl

end Joined

/-! ### Scopes -/

/-- What a group is for. -/
structure GroupScope where
  provider : String
  providerAccountId : String
  model : String
  operation : String
  currencyCode : String
  serviceMonth : Option String
  serviceStartUtc : Option Time
  serviceEndUtc : Option Time

/-- What a source is for. -/
def SourceRow.scope (source : SourceRow) : GroupScope where
  provider := source.provider
  providerAccountId := source.providerAccountId
  model := source.model
  operation := source.operation
  currencyCode := source.currencyCode
  serviceMonth := source.serviceMonth
  serviceStartUtc := source.serviceStartUtc
  serviceEndUtc := source.serviceEndUtc

/-- The text of a time that may be missing. -/
def timeText (env : BillingEnv) (t : Option Time) : String := (t.map env.isoformat).getD ""

/-- The texts of a scope. -/
def GroupScope.texts (env : BillingEnv) (scope : GroupScope) : List String :=
  [scope.provider, scope.providerAccountId, scope.model, scope.operation, scope.currencyCode,
   scope.serviceMonth.getD "", timeText env scope.serviceStartUtc, timeText env scope.serviceEndUtc]

/-- The texts of a scope, cut at every `:`. -/
def GroupScope.pieces (env : BillingEnv) (scope : GroupScope) : List (List Char) :=
  (scope.texts env).flatMap fun text => text.toList.splitOn ':'

variable {env : BillingEnv} {s s' : BillingDb}

theorem groupKeyOf_eq_iff {a b : SourceRow} :
    groupKeyOf env a = groupKeyOf env b ↔ a.scope.pieces env = b.scope.pieces env := by
  have hsplit : ∀ source : SourceRow,
      (groupKeyOf env source).toList.splitOn ':' = source.scope.pieces env := by
    intro source
    unfold groupKeyOf
    rw [String.toList_intercalate]
    change ([':'].intercalate (_ :: _)).splitOn ':' = _
    rw [splitOn_intercalate_cons]
    simp [GroupScope.pieces, GroupScope.texts, SourceRow.scope, timeText]
  rw [← hsplit, ← hsplit, splitOn_inj, String.toList_inj]

/-! ### Groups and their sources -/

/-- A source is linked to a group. -/
structure Linked (s : BillingDb) (source : SourceRow) (groupId : String) : Prop where
  stored : s.get (.source source.providerBillingSourceRecordId) = some source
  link : s.get (.link source.providerBillingSourceRecordId groupId) ≠ none

/-- Any two sources of one group have one scope. -/
def Unmixed (s : BillingDb) : Prop :=
  ∀ a b groupId, Linked s a groupId → Linked s b groupId → a.scope = b.scope

/-- The scopes of the sources that are in groups can be told apart by their pieces. -/
def ToldApart (env : BillingEnv) (s : BillingDb) : Prop :=
  ∀ a b groupId groupId', Linked s a groupId → Linked s b groupId' →
    a.scope.pieces env = b.scope.pieces env → a.scope = b.scope

/-- A group has the key it is found under, and the sources linked to it have that key. -/
structure GroupsOk (env : BillingEnv) (s : BillingDb) : Prop where
  named : SourcesNamed s
  group : ∀ key groupId, s.get (.groupKey key) = some groupId →
    s.get (.group groupId) = some ⟨groupId, key⟩
  link : ∀ sourceId groupId, s.get (.link sourceId groupId) ≠ none →
    ∃ source, s.get (.source sourceId) = some source ∧
      s.get (.groupKey (groupKeyOf env source)) = some groupId

theorem GroupsOk.key (h : GroupsOk env s) {a : SourceRow} (ha : Linked s a groupId) :
    s.get (.groupKey (groupKeyOf env a)) = some groupId := by
  obtain ⟨source, hsource, hkey⟩ := h.link _ _ ha.link
  rw [ha.stored] at hsource
  cases hsource
  exact hkey

theorem GroupsOk.same_group_iff (h : GroupsOk env s) {a b : SourceRow} {groupId' : String}
    (ha : Linked s a groupId) (hb : Linked s b groupId') :
    groupId = groupId' ↔ a.scope.pieces env = b.scope.pieces env := by
  have hkeyA := h.key ha
  have hkeyB := h.key hb
  rw [← groupKeyOf_eq_iff]
  constructor
  · rintro rfl
    have hgroup := h.group _ _ hkeyA
    rw [h.group _ _ hkeyB] at hgroup
    exact (congrArg GroupRow.groupKey (some.inj hgroup)).symm
  · intro hkey
    rw [hkey, hkeyB] at hkeyA
    exact (some.inj hkeyA).symm

theorem GroupsOk.unmixed_iff (h : GroupsOk env s) : Unmixed s ↔ ToldApart env s := by
  constructor
  · intro hunmixed a b groupId groupId' ha hb hpieces
    obtain rfl := (h.same_group_iff ha hb).mpr hpieces
    exact hunmixed a b groupId ha hb
  · intro htold a b groupId ha hb
    exact htold a b groupId groupId ha hb ((h.same_group_iff ha hb).mp rfl)

theorem GroupsOk.empty : GroupsOk env ∅ where
  named id source hget := by simp at hget
  group key groupId hget := by simp at hget
  link sourceId groupId hget := by simp at hget

/-! ### What the operations keep -/

/-- The keys of sources, groups and links. -/
def grouping : BillingKey → Bool
  | .source _ | .group _ | .groupKey _ | .link _ _ => true
  | _ => false

theorem GroupsOk.set (h : GroupsOk env s) {k : BillingKey} (hk : grouping k = false)
    (r : Option (BillingRow k)) : GroupsOk env (s.set k r) := by
  have hne : ∀ k', grouping k' = true → k' ≠ k := by
    rintro k' hk' rfl
    rw [hk] at hk'
    cases hk'
  refine ⟨h.named.set (fun id => (hne _ rfl).symm) r, fun key groupId hget => ?_,
    fun sourceId groupId hget => ?_⟩
  · rw [get_set_of_ne (hne _ rfl)] at hget ⊢
    exact h.group key groupId hget
  · rw [get_set_of_ne (hne _ rfl)] at hget
    obtain ⟨source, hsource, hkey⟩ := h.link sourceId groupId hget
    refine ⟨source, ?_, ?_⟩
    · rw [get_set_of_ne (hne _ rfl)]
      exact hsource
    · rw [get_set_of_ne (hne _ rfl)]
      exact hkey

theorem GroupsOk.grouped (h : GroupsOk env s) {source : SourceRow} {new : Bool}
    (hgrouped : Grouped env source s s' groupId new) :
    GroupsOk env s' ∧ s'.get (.groupKey (groupKeyOf env source)) = some groupId := by
  cases new with
  | false =>
    obtain ⟨hkey, rfl⟩ := hgrouped.old rfl
    exact ⟨h, hkey⟩
  | true =>
    obtain ⟨hfree, hnew, rfl⟩ := hgrouped.made rfl
    refine ⟨⟨(h.named.set (by nofun) _).set (by nofun) _, ?_, ?_⟩, ?_⟩
    · intro key groupId' hget
      rw [get_set_of_ne (by simp)] at hget
      by_cases hkey : key = groupKeyOf env source
      · subst hkey
        rw [get_set_self] at hget
        cases hget
        rw [get_set_self]
      · rw [get_set_of_ne (by simpa using hkey)] at hget
        have hgroup := h.group key groupId' hget
        have hne : groupId' ≠ groupId := by
          rintro rfl
          rw [hnew] at hgroup
          cases hgroup
        rw [get_set_of_ne (by simpa using hne), get_set_of_ne (by simp)]
        exact hgroup
    · intro sourceId groupId' hget
      rw [get_set_of_ne (by simp), get_set_of_ne (by simp)] at hget
      obtain ⟨source', hsource', hkey'⟩ := h.link sourceId groupId' hget
      have hne : groupKeyOf env source' ≠ groupKeyOf env source := by
        intro hsame
        rw [hsame, hfree] at hkey'
        cases hkey'
      refine ⟨source', ?_, ?_⟩
      · rw [get_set_of_ne (by simp), get_set_of_ne (by simp)]
        exact hsource'
      · rw [get_set_of_ne (by simp), get_set_of_ne (by simpa using hne)]
        exact hkey'
    · rw [get_set_of_ne (by simp), get_set_self]

theorem GroupsOk.setLink (h : GroupsOk env s) {source : SourceRow} {row : LinkRow}
    (hsource : s.get (.source source.providerBillingSourceRecordId) = some source)
    (hkey : s.get (.groupKey (groupKeyOf env source)) = some groupId) :
    GroupsOk env (s.set (.link source.providerBillingSourceRecordId groupId) (some row)) where
  named := h.named.set (by nofun) _
  group key groupId' hget := by
    rw [get_set_of_ne (by simp)] at hget ⊢
    exact h.group key groupId' hget
  link sourceId groupId' hget := by
    by_cases hsame : BillingKey.link sourceId groupId'
        = .link source.providerBillingSourceRecordId groupId
    · cases hsame
      refine ⟨source, ?_, ?_⟩
      · rw [get_set_of_ne (by simp)]
        exact hsource
      · rw [get_set_of_ne (by simp)]
        exact hkey
    · rw [get_set_of_ne hsame] at hget
      obtain ⟨source', hsource', hkey'⟩ := h.link sourceId groupId' hget
      refine ⟨source', ?_, ?_⟩
      · rw [get_set_of_ne (by simp)]
        exact hsource'
      · rw [get_set_of_ne (by simp)]
        exact hkey'

theorem GroupsOk.ensured (h : GroupsOk env s) {source : SourceRow} {new : Bool}
    (hsource : s.get (.source source.providerBillingSourceRecordId) = some source)
    (hensured : Ensured env source s s' groupId new) : GroupsOk env s' := by
  obtain ⟨d, hgrouped, hlink⟩ := hensured.grouped
  obtain ⟨hd, hkey⟩ := h.grouped hgrouped
  rcases hlink with ⟨rfl, -⟩ | ⟨-, rfl⟩
  · exact hd
  · refine hd.setLink ?_ hkey
    cases new with
    | false =>
      obtain ⟨-, rfl⟩ := hgrouped.old rfl
      exact hsource
    | true =>
      obtain ⟨-, -, rfl⟩ := hgrouped.made rfl
      rw [get_set_of_ne (by simp), get_set_of_ne (by simp)]
      exact hsource

theorem GroupsOk.imported (h : GroupsOk env s) {record : BillingSourceRecord} {values : SourceRow}
    (himported : Imported env record token s s' values) : GroupsOk env s' := by
  rw [himported.store]
  have hset : GroupsOk env (s.set (.sourceIdentity values.provider values.providerAccountId
      values.billingSourceRecordId) (some values.providerBillingSourceRecordId)) :=
    h.set (by rfl) _
  refine ⟨?_, fun key groupId hget => ?_, fun sourceId groupId hget => ?_⟩
  · intro id source hget
    by_cases hid : BillingKey.source id = .source values.providerBillingSourceRecordId
    · cases hid
      rw [get_set_self] at hget
      cases hget
      rfl
    · rw [get_set_of_ne hid] at hget
      exact hset.named id source hget
  · rw [get_set_of_ne (by simp)] at hget ⊢
    exact hset.group key groupId hget
  · rw [get_set_of_ne (by simp)] at hget
    obtain ⟨source, hsource, hkey⟩ := hset.link sourceId groupId hget
    have hne : sourceId ≠ values.providerBillingSourceRecordId := by
      rintro rfl
      rw [get_set_of_ne (by simp), himported.new] at hsource
      cases hsource
    refine ⟨source, ?_, ?_⟩
    · rw [get_set_of_ne (by simpa using hne)]
      exact hsource
    · rw [get_set_of_ne (by simp)]
      exact hkey

theorem GroupsOk.allocateMonths {source : SourceRow} (list : List (String × Money)) :
    ∀ {s : BillingDb} {tokens : List Token} {months : List ReconciledMonth}, GroupsOk env s →
      (Billing.allocateMonths env source groupId at_ list tokens).exec s = .ok (months, s') →
      GroupsOk env s' := by
  induction list with
  | nil =>
    intro s tokens months hs h
    cases tokens <;> cases h <;> exact hs
  | cons entry rest ih =>
    obtain ⟨period, amount⟩ := entry
    intro s tokens months hs h
    obtain ⟨d, effectiveAt, months', tokens', hadjusted, hrest⟩ := allocateMonths_cons h
    refine ih (.set ?_ (by rfl) _) hrest
    rcases hadjusted.store with rfl | ⟨r', id, _, _, _, _, rfl⟩
    · exact hs
    · exact (hs.set (by rfl) _).set (by rfl) _

theorem GroupsOk.body {op : BillingOp} {u : Unit} (hs : GroupsOk env s)
    (h : (billingBody env op).exec s = .ok (u, s')) : GroupsOk env s' := by
  cases op with
  | recordUsage a =>
    obtain ⟨-, rfl⟩ := recordUsage_ok h
    exact hs.set (by rfl) _
  | importRecord record token =>
    obtain ⟨_, v, hp, h⟩ := Prog.exec_bind_ok h
    cases h
    rcases importRecord_ok hp with rfl | ⟨values, himported⟩
    · exact hs
    · exact hs.imported himported
  | reconcile a =>
    obtain ⟨_, v, hp, h⟩ := Prog.exec_bind_ok h
    cases h
    obtain ⟨source, hsource, ⟨_, usage, estimated, d, hrequest⟩ | ⟨_, hgroup⟩⟩ := reconcile_ok hp
    · rw [hrequest.store]
      apply GroupsOk.set _ (by rfl)
      cases hrequest.appended with
      | old id existing index event store =>
        rw [store]
        exact hs
      | new ref token referenced free index store =>
        rw [store]
        exact (hs.set (by rfl) _).set (by rfl) _
    · have hstored : s.get (.source source.providerBillingSourceRecordId) = some source := by
        rw [hs.named _ _ hsource]
        exact hsource
      cases hgroup with
      | unallocated groupId new d effectiveAt empty ensured status store =>
        rw [store]
        exact (hs.ensured hstored ensured).set (by rfl) _
      | allocated groupId new d list months tokens ensured normalized total status store =>
        exact .allocateMonths list (hs.ensured hstored ensured) store

/-- **When groups are unmixed.**  After any run the sources of every group have one scope exactly
when the scopes of the sources that are in groups can be told apart by their pieces. -/
theorem groups_unmixed (env : BillingEnv) (ops : List BillingOp) :
    Unmixed (execAll (billingBody env) ∅ ops) ↔ ToldApart env (execAll (billingBody env) ∅ ops) := by
  have hok : GroupsOk env (execAll (billingBody env) ∅ ops) :=
    execAll_induction (fun _ _ _ _ hs h => hs.body h) ops ∅ GroupsOk.empty
  exact hok.unmixed_iff

/-! ### Names without a colon -/

/-! ### Where the sources come from -/

theorem get_of_writes {α : Type} {W : BillingKey → Prop} {p : BillingTx α} (hp : p.Writes W)
    {a : α} (h : p.exec s = .ok (a, s')) {k : BillingKey} (hk : ¬ W k) : s'.get k = s.get k := by
  induction p generalizing s with
  | done b =>
    cases h
    rfl
  | fail e => cases h
  | stmt l w n ih =>
    rw [ih s (hp.2 s) h]
    refine get_applyAll_of_notMem fun hmem => ?_
    obtain ⟨x, hx, rfl⟩ := List.mem_map.mp hmem
    exact hk (hp.1 s x hx)

/-- The keys of everything but sources. -/
def notSource : BillingKey → Bool
  | .source _ => false
  | _ => true

section Writes

variable {source : SourceRow}

theorem writes_upsertCostProjection {key : ProjectionKey} {row : ProjectionRow} :
    (upsertCostProjection key row).Writes (notSource · = true) := by
  refine .bind .readRow fun existing => ?_
  cases existing with
  | some row => exact .bind (.updateWhere rfl) fun _ => .done
  | none => exact .insert (by simp [notSource])

theorem writes_ensureGroup : (ensureGroup env source token).Writes (notSource · = true) := by
  refine .bind ?_ fun groupId =>
    .bind (.insertOrSkip (by simp [notSource])) fun _ => .done
  refine .bind .lockRow fun existing => ?_
  cases existing with
  | some groupId => exact .done
  | none =>
    refine .bind (.insertOrSkip (by simp [notSource])) fun inserted => ?_
    exact .ite (fun _ => .done) fun _ => .bind .readRow fun _ => .orRaise

theorem writes_insertGroupAdjustment {period : String} {amount : Money} {lock : CalendarLock} :
    (insertGroupAdjustment env source groupId period amount lock token).Writes
      (notSource · = true) := by
  refine .bind .readRow fun existing => ?_
  cases existing with
  | some row => exact .bind .raiseIf fun _ => .done
  | none =>
    refine .bind .check fun effectiveAt => ?_
    refine .bind (.insertOrSkip (by simp [notSource])) fun inserted => ?_
    exact .ite (fun _ => .done) fun _ => .bind .readRow fun _ =>
      .bind .orRaise fun _ => .bind .raiseIf fun _ => .done

theorem writes_allocateMonths (list : List (String × Money)) :
    ∀ tokens, (allocateMonths env source groupId at_ list tokens).Writes (notSource · = true) := by
  induction list with
  | nil => exact fun _ => .done
  | cons entry rest ih =>
    intro tokens
    cases tokens with
    | nil => exact .fail
    | cons token tokens =>
      exact writes_insertGroupAdjustment.bind fun _ => .bind .check fun _ =>
        writes_upsertCostProjection.bind fun _ => (ih tokens).bind fun _ => .done

theorem writes_reconcileGroup {allocations : List Allocation} {tokens : List Token} :
    (reconcileGroup env source allocations at_ token tokens).Writes (notSource · = true) := by
  refine writes_ensureGroup.bind fun groupId => .ite (fun _ => ?_) fun _ => ?_
  · exact writes_upsertCostProjection.bind fun _ => .done
  · exact .bind .check fun normalized => .bind .raiseIf fun _ =>
      (writes_allocateMonths normalized tokens).bind fun _ => .done

theorem writes_appendCostAdjustment {usage : UsageEventRow} {ownership : OwnershipSnapshot}
    {delta : Decimal} :
    (appendCostAdjustment env usage source ownership delta token).Writes (notSource · = true) := by
  refine .bind .check fun referencedId => .bind .check fun sourceId => ?_
  refine .bind .select fun existing => ?_
  cases existing with
  | some row => exact .bind .raiseIf fun _ => .done
  | none =>
    refine .bind .readRow fun ref => .bind .orRaise fun ref => ?_
    refine .bind .raiseIf fun _ => .bind .raiseIf fun _ => ?_
    refine .bind .check fun amount => ?_
    exact .bind (.insertOrSkip (by simp [notSource])) fun _ =>
      .bind .raiseIf fun _ => .done

theorem writes_reconcileRequestLinked {ownership : OwnershipSnapshot} :
    (reconcileRequestLinked env source ownership at_ token).Writes (notSource · = true) := by
  refine .bind ?_ fun usage => ?_
  · refine .bind .select fun found => ?_
    split
    · exact .done
    · exact .fail
    · exact .fail
  · refine .bind .raiseIf fun _ => .bind .orRaise fun estimated => ?_
    exact writes_appendCostAdjustment.bind fun _ => .bind .check fun _ =>
      writes_upsertCostProjection.bind fun _ => .done

theorem writes_reconcile {a : ReconcileArgs} :
    (reconcile env a).Writes (notSource · = true) := by
  refine .bind .check fun _ => .bind .readRow fun source => ?_
  refine .bind .orRaise fun source => ?_
  exact .ite (fun _ => writes_reconcileRequestLinked) fun _ => writes_reconcileGroup

end Writes

theorem source_of_body {op : BillingOp} {u : Unit} (h : (billingBody env op).exec s = .ok (u, s'))
    {id : String} {source : SourceRow} (hget : s'.get (.source id) = some source) :
    s.get (.source id) = some source ∨
      ∃ record token, op = .importRecord record token ∧
        recordValues env record token = .ok source := by
  cases op with
  | recordUsage a =>
    obtain ⟨-, rfl⟩ := recordUsage_ok h
    rw [get_set_of_ne (by simp)] at hget
    exact .inl hget
  | importRecord record token =>
    obtain ⟨_, v, hp, h⟩ := Prog.exec_bind_ok h
    cases h
    rcases importRecord_ok hp with rfl | ⟨values, himported⟩
    · exact .inl hget
    · rw [himported.store] at hget
      by_cases hid : BillingKey.source id = .source values.providerBillingSourceRecordId
      · cases hid
        rw [get_set_self] at hget
        cases hget
        exact .inr ⟨record, token, rfl, himported.recorded⟩
      · rw [get_set_of_ne hid, get_set_of_ne (by simp)] at hget
        exact .inl hget
  | reconcile a =>
    obtain ⟨_, v, hp, h⟩ := Prog.exec_bind_ok h
    cases h
    rw [get_of_writes writes_reconcile hp (by simp [notSource])] at hget
    exact .inl hget

theorem source_of_run (ops : List BillingOp) :
    ∀ s, ∀ id source, (execAll (billingBody env) s ops).get (.source id) = some source →
      s.get (.source id) = some source ∨ ∃ record token, .importRecord record token ∈ ops ∧
        recordValues env record token = .ok source := by
  induction ops with
  | nil => exact fun s id source hget => .inl hget
  | cons op ops ih =>
    intro s id source hget
    rcases ih _ id source hget with hget | ⟨record, token, hmem, hvalues⟩
    · unfold execOne at hget
      split at hget
      · next x hx =>
        rcases source_of_body hx hget with hget | ⟨record, token, rfl, hvalues⟩
        · exact .inl hget
        · exact .inr ⟨record, token, mem_cons_self, hvalues⟩
      · exact .inl hget
    · exact .inr ⟨record, token, mem_cons_of_mem _ hmem, hvalues⟩

/-! ### Two accounts in one group -/

/-- A bill of `0.30` for a month, without a request id. -/
def monthBill (account model billId : String) : BillingSourceRecord :=
  { sampleBill with
    providerAccountId := account
    model
    billingSourceRecordId := billId
    serviceStartUtc := none
    serviceMonth := some "2026-07" }

/-- The reconciliation of an imported bill in its month. -/
def reconcileMonth (sourceId token : Token) : ReconcileArgs where
  sourceRecordId := "pbs_" ++ sourceId.text
  ownership := sampleOwnership
  allocations := none
  at_ := sampleMoment
  token
  tokens := [token]

/-- Tokens of one letter. -/
def tokenOne : Token := ⟨"1", urlsafe_one⟩

def tokenTwo : Token := ⟨"2", urlsafe_two⟩

/-- A bill of the model `"x"` and the account `"a:m"`, and one of the model `"m:x"` and the
account `"a"`. -/
def mixedCalls : List BillingOp :=
  [.importRecord (monthBill "a:m" "x" "first") tokenOne,
   .importRecord (monthBill "a" "m:x" "second") tokenTwo,
   .reconcile (reconcileMonth tokenOne tokenOne), .reconcile (reconcileMonth tokenTwo tokenTwo)]

/-- What is stored of such a bill. -/
def monthSource (account model billId : String) (token : Token) : SourceRow :=
  { sampleSource with
    providerBillingSourceRecordId := "pbs_" ++ token.text
    providerAccountId := account
    model
    billingSourceRecordId := billId
    serviceStartUtc := none
    serviceMonth := some "2026-07" }

/-- **Both are linked to one group.** -/
theorem groups_mixed : ¬ Unmixed (execAll (billingBody sampleBillingEnv) ∅ mixedCalls) := by
  intro hunmixed
  have hfirst : (execAll (billingBody sampleBillingEnv) ∅ mixedCalls).get (.source "pbs_1")
      = some (monthSource "a:m" "x" "first" tokenOne) := by decide +kernel
  have hsecond : (execAll (billingBody sampleBillingEnv) ∅ mixedCalls).get (.source "pbs_2")
      = some (monthSource "a" "m:x" "second" tokenTwo) := by decide +kernel
  have hlinks : (execAll (billingBody sampleBillingEnv) ∅ mixedCalls).get
        (.link "pbs_1" "pbr_1") ≠ none ∧
      (execAll (billingBody sampleBillingEnv) ∅ mixedCalls).get
        (.link "pbs_2" "pbr_1") ≠ none := by decide +kernel
  have hscope := hunmixed (monthSource "a:m" "x" "first" tokenOne)
    (monthSource "a" "m:x" "second" tokenTwo) "pbr_1" ⟨hfirst, hlinks.1⟩ ⟨hsecond, hlinks.2⟩
  exact absurd (congrArg GroupScope.model hscope) (by decide)

end RagQs.Usage.Billing
