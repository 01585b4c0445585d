import RagQs.Evaluation.CalibrationProof
import RagQs.Txn.StatementExec
import RagQs.Txn.Views

/-!
# Calibration windows, in every run

However operators and the worker interleave, at most one window is in use, as long as none is
opened while another one is closing.

## Main definitions

* `At` — a move of a run.
* `Uses` — a transaction under a key opens a window or sets it closing.
* `Exclusive` — what is asked of the windows in a run.

## Main results

* `calibration_windows_exclusive` — the windows in every run that opens none while one is closing.
* `window_opened_beside_closing` — a run that does.
-/

namespace RagQs.Evaluation

open Txn Discipline List Option Store AList

variable {M S : Type}
variable {a : Result} {id' : String} {key : String × String}

/-- The system of the evaluation. -/
abbrev System (M S : Type) := Sys (Row M S) (Op M) Err Result

/-- The move `m` after the moves `ms₁` of the run `ms` takes it from `s` to `t`. -/
def At (env : Env M S) (db : Db M S) (ms ms₁ : List (Move (Op M))) (m : Move (Op M))
    (s t : System M S) : Prop :=
  ms₁ ++ [m] <+: ms ∧ run (body env) (Sys.init db) ms₁ = some s ∧ step (body env) s m = some t

/-- A transaction under the key opens the window `id` by the move, or sets it closing. -/
def Uses (key : String × String) (s : System M S) (m : Move (Op M)) (t : System M S)
    (id : String) : Prop :=
  ∃ i x, m = .advance i ∧ s.sessions i = some x ∧ x.op.commandKey = some key ∧
    stage t.db id ≠ stage s.db id ∧ stage t.db id ≠ 3

/-- What is asked of the windows in the run `ms`. -/
structure Exclusive (env : Env M S) (db : Db M S) (ms : List (Move (Op M))) : Prop where
  /-- At most one window is open or closing. -/
  live : ∀ ms₁ s, ms₁ <+: ms → run (body env) (Sys.init db) ms₁ = some s →
    ∀ id id' (w w' : WindowRow), s.db.get (.window id) = some w → w.live →
      s.db.get (.window id') = some w' → w'.live → id = id'
  /-- There is none, it is open, it is closing, it is closed. -/
  edge : ∀ ms₁ m s t, At env db ms ms₁ m s t →
    ∀ id, stage t.db id = stage s.db id ∨ stage t.db id = stage s.db id + 1
  /-- A window is closed by the worker: after its deadline, or with no pair that can be voted on
  in what the worker read. -/
  closed : ∀ ms₁ m s t, At env db ms ms₁ m s t → ∀ id, stage s.db id = 2 → stage t.db id = 3 →
    ∃ i x now, ∃ w : WindowRow, m = .advance i ∧ s.sessions i = some x ∧ x.op = .closeWorker now ∧
      s.db.get (.window id) = some w ∧ (w.closeDeadlineAt.any (· ≤ now) = true ∨
        ∃ c, During (body env) (Sys.init db) ms₁ i c ∧ hasVotablePairs id c = false)
  /-- A window is opened, and set closing, under a key. -/
  keyed : ∀ ms₁ m s t, At env db ms ms₁ m s t → ∀ id, stage t.db id ≠ stage s.db id →
    stage t.db id ≠ 3 → ∃ key, Uses key s m t id
  /-- A key does so once. -/
  once : ∀ key ms₁ m₁ s₁ t₁ id₁ ms₂ m₂ s₂ t₂ id₂, At env db ms ms₁ m₁ s₁ t₁ →
    At env db ms ms₂ m₂ s₂ t₂ → Uses key s₁ m₁ t₁ id₁ → Uses key s₂ m₂ t₂ id₂ →
    ms₁ = ms₂ ∧ id₁ = id₂
  /-- A run of the worker that commits closes a window that was closing past its deadline all
  the while. -/
  finishes : ∀ ms₁ i s t now k d n, At env db ms ms₁ (.advance i) s t →
    s.sessions i = some ⟨.closeWorker now, .done k, d, n⟩ → ∀ id,
    (∀ c, During (body env) (Sys.init db) ms₁ i c → ∃ w : WindowRow, c.get (.window id) = some w ∧
      w.status = .closing ∧ w.closeDeadlineAt.any (· ≤ now) = true) → stage t.db id = 3
  /-- Alone, the worker goes through to its end. -/
  ends : ∀ ms₁ s, ms₁ <+: ms → run (body env) (Sys.init db) ms₁ = some s →
    ∀ id (w : WindowRow) now, s.db.get (.window id) = some w → w.status = .closing →
      w.closeDeadlineAt.any (· ≤ now) = true →
      ∃ c, (closeWorker env now).exec s.db = .ok (1, c) ∧ stage c id = 3

variable {env : Env M S} {db : Db M S} {ms ms₁ ms₂ : List (Move (Op M))} {m : Move (Op M)}
  {s t u : System M S} {id : String} {w : WindowRow} {now : Time}

/-- The invariant of the system. -/
abbrev Sound (s : System M S) : Prop :=
  SysOk windows (fun _ => onWrites OpensApart) (fun op _ a c c' => Moved op a c c')
    (fun _ _ _ _ => True) (fun _ _ => True) s

theorem sound_run (hdb : WindowsOk db)
    (hA : AllowsRun (fun _ => onWrites OpensApart) (body env) (Sys.init db) ms)
    (h : ms₁ <+: ms) (hs : run (body env) (Sys.init db) ms₁ = some s) : Sound s := by
  obtain ⟨ms₂, rfl⟩ := h
  exact (verified.run .true ms₁ (allowsRun_append hA hs).1 (.init hdb trivial) hs).1

theorem change_run (hdb : WindowsOk db)
    (hA : AllowsRun (fun _ => onWrites OpensApart) (body env) (Sys.init db) ms)
    (h : ms₁ ++ ms₂ <+: ms) (hs : run (body env) (Sys.init db) ms₁ = some s)
    (ht : run (body env) (Sys.init db) (ms₁ ++ ms₂) = some t) :
    WindowChange (fun _ => True) s.db t.db := by
  have hsound := sound_run hdb hA ((prefix_append ..).trans h) hs
  obtain ⟨ms₃, rfl⟩ := h
  rw [run_append, hs] at ht
  rw [append_assoc] at hA
  have hrest := allowsRun_append (allowsRun_append hA hs).2 ht
  exact (verified.run .true ms₂ hrest.1 hsound ht).2

theorem step_moved (h : Sound s) (hm : step (body env) s m = some t) :
    t.db = s.db ∨ ∃ i op a d n, m = .advance i ∧ s.sessions i = some ⟨op, .done a, d, n⟩ ∧
      t.db = d ∪ s.db ∧ Moved op a s.db t.db := by
  rcases h.step_commit hm with hdb | ⟨i, op, c₀, a, d, n, hi, hx, hdb, hmoved⟩
  · exact .inl hdb
  · exact .inr ⟨i, op, a, d, n, hi, hx, hdb, hmoved⟩

/-! ### What the worker reads -/

theorem windowIn_some {status : WindowStatus} {v : Db M S} {x : String × WindowRow}
    (h : windowIn status v = some x) :
    v.get (.window x.1) = some x.2 ∧ x.2.status = status := by
  obtain ⟨k, r, hget, hpick⟩ := mem_table.mp (argmax_mem h)
  cases k with
  | window id =>
    simp only [ite_none_right_eq_some, some.injEq] at hpick
    obtain ⟨hstatus, rfl⟩ := hpick
    exact ⟨hget, hstatus⟩
  | _ => cases hpick

theorem windowIn_none {status : WindowStatus} {v : Db M S} (h : windowIn status v = none)
    (hget : v.get (.window id) = some w) : w.status ≠ status := by
  intro hstatus
  have hempty := argmax_eq_none.mp h
  have hmem : (id, w) ∈ ([] : List (String × WindowRow)) := by
    rw [← hempty]
    exact mem_table.mpr ⟨.window id, w, hget, if_pos hstatus⟩
  cases hmem

theorem windowIn_closing {v : Db M S} (hv : WindowsOk v) (hget : v.get (.window id) = some w)
    (hstatus : w.status = .closing) : windowIn .closing v = some (id, w) := by
  cases h : windowIn .closing v with
  | none => exact absurd hstatus (windowIn_none h hget)
  | some x =>
    obtain ⟨hx, hclosing⟩ := windowIn_some h
    have hid : x.1 = id := hv.single _ _ (stage_eq_two.mpr ⟨_, hx, hclosing⟩)
      (stage_eq_two.mpr ⟨_, hget, hstatus⟩)
    obtain ⟨id', w'⟩ := x
    obtain rfl : id' = id := hid
    rw [hget] at hx
    cases hx
    rfl

/-- The writes that close a window for good. -/
def finalWrites (id : String) (now : Time) (v : Db M S) : List (Write (Row M S)) :=
  ((v.get (.window id)).filter fun w : WindowRow => w.status = .closing).toList.map
    fun w : WindowRow => ⟨.window id, some { w with
      status := .closed, closedAt := some now, version := w.version + 1 }⟩

/-- The worker found the window `x`, and had a reason to close it. -/
def Reason (now : Time) (cs : List (Db M S)) (x : String × WindowRow) : Prop :=
  x.2.closeDeadlineAt.any (· ≤ now) = true ∨ ∃ c ∈ cs, hasVotablePairs x.1 c = false

variable {cs : List (Db M S)} {d : Db M S}

theorem finalize_seen {d₂ : Db M S} (hd₂ : ∀ k ∈ d₂, Key.elsewhere k)
    (h : (finalizeWindow id now >>= fun n => (.done (.count n) : Tx M S Result)).runOn d₂ cs
      = some (.done a, d)) :
    ∃ c₃ ∈ cs, ∃ d₂ : Db M S, (∀ k ∈ d₂, Key.elsewhere k) ∧
      d = d₂.applyAll (finalWrites id now (d₂ ∪ c₃)) := by
  cases cs with
  | nil =>
    rw [Prog.runOn_nil] at h
    cases h
  | cons c₃ cs =>
    refine ⟨c₃, mem_cons_self, d₂, hd₂, ?_⟩
    cases cs with
    | nil =>
      cases h
      rfl
    | cons c cs => cases h

theorem elsewhere_expireWindowPairs (c : Db M S) :
    ∀ k ∈ ((∅ : Db M S).applyAll (table (∅ ∪ c) fun k r => ((match k, r with
        | .pair _, r =>
          if r.windowId = id ∧ r.status.votable then some (some { r with status := .expired })
          else none
        | _, _ => none : Option (Option (Row M S k)))).map (Sigma.mk k))),
      Key.elsewhere k := by
  intro k hk
  rcases mem_applyAll.mp hk with hk | hk
  · obtain ⟨x, hx, rfl⟩ := List.mem_map.mp hk
    exact writes_expireWindowPairs.1 _ x hx
  · exact absurd hk (notMem_empty k)

theorem closeFound_seen
    (h : (closeFound env now id w >>= fun n => (.done (.count n) : Tx M S Result)).runOn ∅ cs
      = some (.done a, d)) :
    (d = ∅ ∧ ¬ w.closeDeadlineAt.any (· ≤ now) = true) ∨
      Reason now cs (id, w) ∧ ∃ c₃ ∈ cs, ∃ d₂ : Db M S, (∀ k ∈ d₂, Key.elsewhere k) ∧
        d = d₂.applyAll (finalWrites id now (d₂ ∪ c₃)) := by
  have hexpiry : env.pairExpiry = true := by
    by_contra hnot
    obtain ⟨e, hstop⟩ : ∃ e, (requirePairExpiry env : Tx M S Unit) = .fail e :=
      ⟨_, if_pos (by simpa using hnot)⟩
    unfold closeFound at h
    rw [hstop] at h
    simp only [Prog.fail_bind, ite_self] at h
    cases cs with
    | nil => cases h
    | cons c cs => cases h
  have hgo : (requirePairExpiry env : Tx M S Unit) = .done () := if_neg (by simp [hexpiry])
  unfold closeFound at h
  rw [hgo] at h
  simp only [Prog.done_bind] at h
  by_cases hdue : w.closeDeadlineAt.any (· ≤ now) = true
  · rw [if_pos hdue] at h
    refine .inr ⟨.inl hdue, ?_⟩
    cases cs with
    | nil =>
      rw [Prog.runOn_nil] at h
      cases h
    | cons c₂ cs =>
      -- the pairs are expired on the rows the worker sees next
      obtain ⟨c₃, hc₃, hrest⟩ := finalize_seen (elsewhere_expireWindowPairs c₂) h
      exact ⟨c₃, mem_cons_of_mem _ hc₃, hrest⟩
  · rw [if_neg hdue] at h
    cases cs with
    | nil =>
      rw [Prog.runOn_nil] at h
      cases h
    | cons c₂ cs =>
      change ((if hasVotablePairs id (∅ ∪ c₂) then (.done 0 : Tx M S ℕ)
        else finalizeWindow id now) >>= fun n => (.done (.count n) : Tx M S Result)).runOn ∅ cs
          = some (.done a, d) at h
      rw [empty_union] at h
      cases hvotable : hasVotablePairs id c₂ with
      | true =>
        rw [hvotable, if_pos rfl] at h
        cases cs with
        | nil =>
          cases h
          exact .inl ⟨rfl, hdue⟩
        | cons c cs => cases h
      | false =>
        rw [hvotable, if_neg Bool.false_ne_true] at h
        obtain ⟨c₃, hc₃, hrest⟩ := finalize_seen (fun k hk => absurd hk (notMem_empty k)) h
        exact .inr ⟨.inr ⟨c₂, mem_cons_self, hvotable⟩, c₃, mem_cons_of_mem _ hc₃, hrest⟩

theorem runOn_closeWorker (c₁ : Db M S) :
    (body env (.closeWorker now)).runOn ∅ (c₁ :: cs) =
      ((match windowIn .closing (∅ ∪ c₁) with
        | none => (.done 0 : Tx M S ℕ)
        | some window => closeFound env now window.1 window.2) >>= fun n =>
          (.done (.count n) : Tx M S Result)).runOn ∅ cs := rfl

/-- **What the worker commits**, by the committed stores it has seen. -/
theorem closeWorker_seen (h : (body env (.closeWorker now)).runOn ∅ cs = some (.done a, d)) :
    ∃ c₁ ∈ cs, (d = ∅ ∧ ∀ x, windowIn .closing c₁ = some x →
        ¬ x.2.closeDeadlineAt.any (· ≤ now) = true) ∨
      ∃ x, windowIn .closing c₁ = some x ∧ Reason now cs x ∧
        ∃ c₃ ∈ cs, ∃ d₂ : Db M S, (∀ k ∈ d₂, Key.elsewhere k) ∧
          d = d₂.applyAll (finalWrites x.1 now (d₂ ∪ c₃)) := by
  cases cs with
  | nil =>
    rw [Prog.runOn_nil] at h
    cases h
  | cons c₁ cs =>
    refine ⟨c₁, mem_cons_self, ?_⟩
    rw [runOn_closeWorker, empty_union] at h
    cases hfound : windowIn .closing c₁ with
    | none =>
      rw [hfound] at h
      cases cs with
      | nil =>
        cases h
        refine .inl ⟨rfl, fun x hx => ?_⟩
        cases hx
      | cons c cs => cases h
    | some x =>
      simp only [hfound] at h
      rcases closeFound_seen h with ⟨hd, hdue⟩ | ⟨hreason, c₃, hc₃, hrest⟩
      · refine .inl ⟨hd, fun x' hx' => ?_⟩
        cases hx'
        exact hdue
      · refine .inr ⟨x, rfl, ?_, c₃, mem_cons_of_mem _ hc₃, hrest⟩
        refine hreason.imp_right fun hseen => ?_
        obtain ⟨c, hc, hv⟩ := hseen
        exact ⟨c, mem_cons_of_mem _ hc, hv⟩

/-! ### The windows in a run -/

variable {c : Db M S}

theorem during_change {i : ℕ} (hdb : WindowsOk db)
    (hA : AllowsRun (fun _ => onWrites OpensApart) (body env) (Sys.init db) ms) (h : ms₁ <+: ms)
    (hs : run (body env) (Sys.init db) ms₁ = some s) (hc : During (body env) (Sys.init db) ms₁ i c) :
    WindowsOk c ∧ WindowChange (fun _ => True) c s.db := by
  obtain ⟨p₁, p₂, u, rfl, hu, rfl, -⟩ := hc
  exact ⟨(sound_run hdb hA ((prefix_append ..).trans h) hu).inv, change_run hdb hA h hu hs⟩

theorem get_finalWrites {c₃ : Db M S} (hd : ∀ k ∈ d, Key.elsewhere k) :
    (d.applyAll (finalWrites id' now (d ∪ c₃)) ∪ c).get (.window id)
      = (c.applyAll (finalWrites id' now c₃)).get (.window id) := by
  have hsame : finalWrites id' now (d ∪ c₃) = finalWrites id' now c₃ := by
    have hget : (d ∪ c₃ : Db M S).get (.window id') = c₃.get (.window id') :=
      get_union_of_notMem fun hk => hd _ hk trivial
    unfold finalWrites
    rw [hget]
  rw [hsame, applyAll_union]
  exact get_applyAll_at (get_union_of_notMem fun hk => hd _ hk trivial)

theorem closed_by_worker (hdb : WindowsOk db)
    (hA : AllowsRun (fun _ => onWrites OpensApart) (body env) (Sys.init db) ms)
    (h : At env db ms ms₁ m s t) (h2 : stage s.db id = 2) (h3 : stage t.db id = 3) :
    ∃ i x now, ∃ w : WindowRow, m = .advance i ∧ s.sessions i = some x ∧ x.op = .closeWorker now ∧
      s.db.get (.window id) = some w ∧ (w.closeDeadlineAt.any (· ≤ now) = true ∨
        ∃ c, During (body env) (Sys.init db) ms₁ i c ∧ hasVotablePairs id c = false) := by
  obtain ⟨hpre, hs, hm⟩ := h
  have hpre₁ : ms₁ <+: ms := (prefix_append ..).trans hpre
  have hsound := sound_run hdb hA hpre₁ hs
  obtain ⟨w, hw, -⟩ := stage_eq_two.mp h2
  rcases step_moved hsound hm with hdb' | ⟨i, op, a, d, n, rfl, hx, hdb', hmoved⟩
  · rw [hdb'] at h3
    omega
  obtain ⟨now, rfl⟩ := hmoved.finished id h2 h3
  refine ⟨i, _, now, w, rfl, hx, rfl, hw, ?_⟩
  obtain ⟨cs, hcs, hduring, -⟩ := session_seen (hA.of_prefix hpre₁ hs) hs hx
  obtain ⟨c₁, hc₁, ⟨rfl, -⟩ | ⟨x, hfound, hreason, c₃, hc₃, d₂, hd₂, rfl⟩⟩ := closeWorker_seen hcs
  · -- nothing was written
    rw [hdb', empty_union] at h3
    omega
  obtain ⟨hx₁, hclosing⟩ := windowIn_some hfound
  have hid : x.1 = id := by
    by_contra hne
    have hsame : stage t.db id = stage s.db id := by
      refine stage_of_get ?_
      rw [hdb', get_finalWrites hd₂, get_applyAll_of_notMem]
      simp [finalWrites, hne]
    omega
  subst hid
  rcases hreason with hdue | ⟨c₂, hc₂, hvotable⟩
  · have hchange := (during_change hdb hA hpre₁ hs (hduring c₁ hc₁)).2
    rw [hchange.deadline x.1 x.2 w hx₁ hw (by rw [hclosing]; simp)]
    exact .inl hdue
  · exact .inr ⟨c₂, hduring c₂ hc₂, hvotable⟩

theorem worker_finishes {i n : ℕ} (hdb : WindowsOk db)
    (hA : AllowsRun (fun _ => onWrites OpensApart) (body env) (Sys.init db) ms)
    (h : At env db ms ms₁ (.advance i) s t)
    (hx : s.sessions i = some ⟨.closeWorker now, .done a, d, n⟩)
    (hwhile : ∀ c, During (body env) (Sys.init db) ms₁ i c → ∃ w : WindowRow,
      c.get (.window id) = some w ∧ w.status = .closing ∧
        w.closeDeadlineAt.any (· ≤ now) = true) : stage t.db id = 3 := by
  obtain ⟨hpre, hs, hm⟩ := h
  have hpre₁ : ms₁ <+: ms := (prefix_append ..).trans hpre
  obtain ⟨cs, hcs, hduring, -⟩ := session_seen (hA.of_prefix hpre₁ hs) hs hx
  obtain ⟨c₁, hc₁, hcase⟩ := closeWorker_seen hcs
  obtain ⟨w, hw, hclosing, hdue⟩ := hwhile c₁ (hduring c₁ hc₁)
  have hfound := windowIn_closing (during_change hdb hA hpre₁ hs (hduring c₁ hc₁)).1 hw hclosing
  rcases hcase with ⟨-, hnot⟩ | ⟨x, hx', -, c₃, hc₃, d₂, hd₂, rfl⟩
  · exact absurd hdue (hnot _ hfound)
  obtain rfl : (id, w) = x := some.inj (hfound.symm.trans hx')
  -- the window is still closing where the last statement runs
  obtain ⟨w₃, hw₃, hclosing₃, -⟩ := hwhile c₃ (hduring c₃ hc₃)
  have hcommit : t.db = d₂.applyAll (finalWrites id now (d₂ ∪ c₃)) ∪ s.db := by
    simp only [step, hx] at hm
    cases hm
    rfl
  have hafter : t.db.get (.window id) = some { w₃ with
      status := .closed, closedAt := some now, version := w₃.version + 1 } := by
    have hfilter : (c₃.get (.window id)).filter (fun w : WindowRow => w.status = .closing)
        = some w₃ := filter_eq_some_iff.mpr ⟨hw₃, decide_eq_true hclosing₃⟩
    rw [hcommit, get_finalWrites hd₂]
    unfold finalWrites
    rw [hfilter]
    simp
  unfold stage
  rw [hafter]

theorem worker_ends (hexpiry : env.pairExpiry = true) (hc : WindowsOk c)
    (hw : c.get (.window id) = some w) (hclosing : w.status = .closing)
    (hdue : w.closeDeadlineAt.any (· ≤ now) = true) :
    ∃ c', (closeWorker env now).exec c = .ok (1, c') ∧ stage c' id = 3 := by
  have hgo : (requirePairExpiry env : Tx M S Unit) = .done () := if_neg (by simp [hexpiry])
  have hfound : (closeWorker env now).exec c = (closeFound env now id w).exec c := by
    unfold closeWorker
    rw [Prog.exec_bind, Prog.exec_select, windowIn_closing hc hw hclosing]
    rfl
  obtain ⟨n, c₂, hexpire, hkeep⟩ : ∃ n, ∃ c₂ : Db M S,
      (expireWindowPairs id : Tx M S ℕ).exec c = .ok (n, c₂) ∧ c₂.get (.window id) = some w := by
    refine ⟨_, _, rfl, (get_applyAll_of_notMem fun hk => ?_).trans hw⟩
    obtain ⟨x, hx, hkey⟩ := List.mem_map.mp hk
    have helsewhere := writes_expireWindowPairs.1 _ x hx
    rw [hkey] at helsewhere
    exact helsewhere trivial
  refine ⟨c₂.set (.window id) (some { w with
    status := .closed, closedAt := some now, version := w.version + 1 }), ?_, ?_⟩
  · rw [hfound]
    unfold closeFound
    rw [if_pos hdue, hgo, Prog.done_bind, Prog.exec_bind, hexpire]
    exact exec_updateWhere_hit hkeep (decide_eq_true hclosing)
  · unfold stage
    rw [get_set_self]

theorem uses_named (h : Sound s) (hm : step (body env) s m = some t) (hu : Uses key s m t id) :
    s.db.get (.command key.1 key.2) = none ∧
      ∃ r : CommandRow, t.db.get (.command key.1 key.2) = some r ∧ r.response.1 = id := by
  obtain ⟨i, x, rfl, hx, hkey, hne, hnot⟩ := hu
  rcases step_moved h hm with hdb | ⟨j, op, a, d, n, hj, hx', -, hmoved⟩
  · exact absurd (by rw [hdb]) hne
  · obtain rfl : i = j := by
      cases hj
      rfl
    cases hx.symm.trans hx'
    obtain ⟨u, k, w, status, hkey', rfl, hnone⟩ := hmoved.named id hne hnot
    obtain rfl : key = (u, k) := some.inj (hkey.symm.trans hkey')
    obtain ⟨r, hr, hresponse⟩ := hmoved.answered u k _ hkey' rfl
    exact ⟨hnone, r, hr, by rw [hresponse]⟩

theorem not_uses_later {m' : Move (Op M)} {s' t' : System M S} (hdb : WindowsOk db)
    (hA : AllowsRun (fun _ => onWrites OpensApart) (body env) (Sys.init db) ms)
    (h : At env db ms ms₁ m s t) (h' : At env db ms ms₂ m' s' t') (hu : Uses key s m t id)
    (hu' : Uses key s' m' t' id') : ¬ ms₁ ++ [m] <+: ms₂ := by
  rintro ⟨rest, rfl⟩
  obtain ⟨hpre, hs, hm⟩ := h
  obtain ⟨hpre', hs', hm'⟩ := h'
  have hnext : run (body env) (Sys.init db) (ms₁ ++ [m]) = some t := by
    rw [run_append, hs, bind_some, run, hm, bind_some, run_nil]
  have hpre₂ := (prefix_append _ [m']).trans hpre'
  obtain ⟨-, r, hr, -⟩ :=
    uses_named (sound_run hdb hA ((prefix_append ..).trans hpre) hs) hm hu
  obtain ⟨hnone, -⟩ := uses_named (sound_run hdb hA hpre₂ hs') hm' hu'
  have hstays := (change_run hdb hA hpre₂ hnext hs').command key.1 key.2 r hr
  rw [hnone] at hstays
  cases hstays

theorem uses_once {m' : Move (Op M)} {s' t' : System M S} (hdb : WindowsOk db)
    (hA : AllowsRun (fun _ => onWrites OpensApart) (body env) (Sys.init db) ms)
    (h : At env db ms ms₁ m s t) (h' : At env db ms ms₂ m' s' t') (hu : Uses key s m t id)
    (hu' : Uses key s' m' t' id') : ms₁ = ms₂ ∧ id = id' := by
  have hcases : ∀ {p q : List (Move (Op M))} {x y}, p ++ [x] <+: ms → q ++ [y] <+: ms →
      p.length < q.length → p ++ [x] <+: q := by
    intro p q x y hp hq hlt
    refine prefix_of_prefix_length_le hp ((prefix_append ..).trans hq) ?_
    simp only [length_append, length_singleton]
    omega
  rcases Nat.lt_trichotomy ms₁.length ms₂.length with hlt | heq | hlt
  · exact absurd (hcases h.1 h'.1 hlt) (not_uses_later hdb hA h h' hu hu')
  · have hprefix := prefix_of_prefix_length_le h.1 h'.1 (by simp [heq])
    have hsame := hprefix.eq_of_length (by simp [heq])
    obtain ⟨rfl, hm⟩ := append_inj' hsame rfl
    cases hm
    cases h.2.1.symm.trans h'.2.1
    cases h.2.2.symm.trans h'.2.2
    have hsound := sound_run hdb hA ((prefix_append ..).trans h.1) h.2.1
    obtain ⟨-, r, hr, hid⟩ := uses_named hsound h.2.2 hu
    obtain ⟨-, r', hr', hid'⟩ := uses_named hsound h.2.2 hu'
    rw [hr] at hr'
    cases hr'
    exact ⟨rfl, hid.symm.trans hid'⟩
  · exact absurd (hcases h'.1 h.1 hlt) (not_uses_later hdb hA h' h hu' hu)

theorem live_unique {w' : WindowRow} (hc : WindowsOk c) (hw : c.get (.window id) = some w)
    (hlive : w.live) (hw' : c.get (.window id') = some w') (hlive' : w'.live) : id = id' := by
  have hone : ∀ {id} {w : WindowRow}, c.get (.window id) = some w → w.status = .isOpen →
      c.get Key.openWindow = some id :=
    fun hget ho => (hc.index _).mpr (stage_eq_one.mpr ⟨_, hget, ho⟩)
  have hfree : ∀ {id} {w : WindowRow}, c.get (.window id) = some w → w.status = .closing →
      c.get Key.openWindow = none :=
    fun hget hclosing => hc.apart _ (stage_eq_two.mpr ⟨_, hget, hclosing⟩)
  rcases hlive with ho | hcl <;> rcases hlive' with ho' | hcl'
  · have hindex := hone hw ho
    rw [hone hw' ho'] at hindex
    exact (some.inj hindex).symm
  · have hindex := hone hw ho
    rw [hfree hw' hcl'] at hindex
    cases hindex
  · have hindex := hone hw' ho'
    rw [hfree hw hcl] at hindex
    cases hindex
  · exact hc.single id id' (stage_eq_two.mpr ⟨w, hw, hcl⟩) (stage_eq_two.mpr ⟨w', hw', hcl'⟩)

/-- **Calibration windows are exclusive** in every run that opens none while one is closing. -/
theorem calibration_windows_exclusive (hexpiry : env.pairExpiry = true) (hdb : WindowsOk db)
    (hA : AllowsRun (fun _ => onWrites OpensApart) (body env) (Sys.init db) ms) :
    Exclusive env db ms where
  live ms₁ s hpre hs id id' w w' hw hlive hw' hlive' :=
    live_unique (sound_run hdb hA hpre hs).inv hw hlive hw' hlive'
  edge ms₁ m s t h id := by
    obtain ⟨hpre, hs, hm⟩ := h
    have hsound := sound_run hdb hA ((List.prefix_append ..).trans hpre) hs
    rcases step_moved hsound hm with hdb' | ⟨i, op, a, d, n, -, -, -, hmoved⟩
    · exact .inl (by rw [hdb'])
    · exact hmoved.edge id
  closed ms₁ m s t h id h2 h3 := closed_by_worker hdb hA h h2 h3
  keyed ms₁ m s t h id hne hnot := by
    obtain ⟨hpre, hs, hm⟩ := h
    have hsound := sound_run hdb hA ((List.prefix_append ..).trans hpre) hs
    rcases step_moved hsound hm with hdb' | ⟨i, op, a, d, n, rfl, hx, -, hmoved⟩
    · exact absurd (by rw [hdb']) hne
    · obtain ⟨u, k, w, status, hkey, -⟩ := hmoved.named id hne hnot
      exact ⟨(u, k), i, _, rfl, hx, hkey, hne, hnot⟩
  once key ms₁ m₁ s₁ t₁ id₁ ms₂ m₂ s₂ t₂ id₂ h h' hu hu' := uses_once hdb hA h h' hu hu'
  finishes ms₁ i s t now k d n h hx id hwhile := worker_finishes hdb hA h hx hwhile
  ends ms₁ s hpre hs id w now hw hclosing hdue :=
    worker_ends hexpiry (sound_run hdb hA hpre hs).inv hw hclosing hdue

/-! ### Runs -/

/-- The statement opens no window while one is closing. -/
def opensApart (ws : List (Write (Row M S))) (v : Db M S) : Bool :=
  ws.all fun x => match x with
    | ⟨.openWindow, some _⟩ => (windowIn .closing v).isNone
    | _ => true

theorem opensApart_sound (ws : List (Write (Row M S))) (v : Db M S) (h : opensApart ws v = true) :
    OpensApart ws v := by
  intro id hmem id' h2
  obtain ⟨w, hw, hclosing⟩ := stage_eq_two.mp h2
  have hnone := List.all_eq_true.mp h _ hmem
  exact windowIn_none (isNone_iff_eq_none.mp hnone) hw hclosing

/-- A configuration in which any two results are as good. -/
def sampleEnv : Env Unit Unit where
  score _ _ _ _ := ((), true)
  atLeast _ _ := true
  apart _ _ _ := false
  validatePolicy _ := .ok ()
  requestHash action _ := match action with
    | .openWindow => "open"
    | .closeWindow => "close"
  calibrationOutbox := true
  pairExpiry := true

/-- A request to open a window by hand. -/
def sampleOpen (windowId key : String) : Op Unit :=
  .openWindow ⟨"ops", "u", "open", some "manual", key, windowId, ⟨1000000, fun s => s, fun _ => none⟩⟩

/-- A request to close the open window. -/
def sampleClose (key : String) : Op Unit := .closeWindow ⟨"ops", "u", key, 2000000⟩

/-- A window is opened and closed, and the worker closes it for good. -/
def sampleClosed : List (Move (Op Unit)) :=
  alone 0 (sampleOpen "a" "k") 7 ++ alone 1 (sampleClose "l") 7 ++
    alone 2 (.closeWorker 5000000000) 4

theorem windowsOk_empty : WindowsOk (∅ : Db M S) where
  index id := by simp [stage]
  apart id _ := by simp
  single id id' h := by simp [stage] at h
  deadline id w h := by simp at h

theorem calibration_windows_sample :
    Exclusive sampleEnv ∅ sampleClosed ∧
      ∃ s : System Unit Unit, run (body sampleEnv) (Sys.init ∅) sampleClosed = some s ∧
        stage s.db "a" = 3 := by
  have hgood : passesRun opensApart (body sampleEnv) (Sys.init ∅) sampleClosed = true := by
    decide +kernel
  have hrun : (run (body sampleEnv) (Sys.init ∅) sampleClosed).map (fun s => stage s.db "a")
      = some 3 := by
    decide +kernel
  exact ⟨calibration_windows_exclusive rfl windowsOk_empty
    (allowsRun_of_passesRun opensApart_sound _ _ hgood), Option.map_eq_some_iff.mp hrun⟩

/-- Two windows are opened, and the one opened first is set closing, before the other is
inserted. -/
def sampleBeside : List (Move (Op Unit)) :=
  .start 0 (sampleOpen "a" "k") :: replicate 4 (.advance 0) ++
    alone 1 (sampleOpen "b" "l") 7 ++ alone 2 (sampleClose "m") 7 ++
    replicate 3 (.advance 0)

theorem window_opened_beside_closing :
    ¬ ∀ (env : Env Unit Unit) (db : Db Unit Unit) (ms : List (Move (Op Unit))),
      env.pairExpiry = true → WindowsOk db → Exclusive env db ms := by
  intro h
  have hrun : (run (body sampleEnv) (Sys.init ∅) sampleBeside).map (fun s =>
      (stage s.db "a", stage s.db "b")) = some (1, 2) := by
    decide +kernel
  obtain ⟨s, hs, hstages⟩ := Option.map_eq_some_iff.mp hrun
  obtain ⟨h1, h2⟩ := Prod.mk.inj hstages
  obtain ⟨w, hw, hopen⟩ := stage_eq_one.mp h1
  obtain ⟨w', hw', hclosing⟩ := stage_eq_two.mp h2
  have hsame := (h sampleEnv ∅ sampleBeside rfl windowsOk_empty).live sampleBeside s
    List.prefix_rfl hs "a" "b" w w' hw (.inl hopen) hw' (.inr hclosing)
  exact absurd hsame (by decide)

end RagQs.Evaluation
