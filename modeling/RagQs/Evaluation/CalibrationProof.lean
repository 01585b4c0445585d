import RagQs.Evaluation.SuggestionProof
import RagQs.Evaluation.WindowChanges

/-!
# The transactions keep the windows apart

Every transaction of the system keeps at most one window in use, as long as no window is
inserted on a view that shows one closing: the index entry of the new window is locked from the
insert to the commit, and a window only starts closing under that lock.

## Main definitions

* `windows` — the discipline of the transactions.
* `OpensApart` — what is asked of the statement that inserts a window.
* `Owed` — what a transaction has to show at its end.

## Main results

* `verified` — every transaction keeps the discipline and moves the windows as it should.
-/

namespace RagQs.Evaluation

open Txn Discipline List Option Store

variable {M S : Type}
variable {windowId requestHash u k : String} {now : Time}

/-- The discipline of the transactions: the windows are apart. -/
def windows : Discipline (Row M S) where
  Inv := WindowsOk
  guar := WindowChange
  refl _ _ := .refl
  trans := .trans
  mono hW h := h.mono hW

/-- A window is inserted while none is closing in the rows the statement sees. -/
def OpensApart (ws : List (Write (Row M S))) (v : Db M S) : Prop :=
  ∀ id, (⟨.openWindow, some id⟩ : Write (Row M S)) ∈ ws → ∀ id', stage v id' ≠ 2

/-- The rows of the other tables. -/
def Key.elsewhere (k : Key) : Prop := ¬ k.windowed

/-- What a transaction has to show at its end. -/
def Owed (op : Op M) (a : Result) : Assn (Row M S) := fun c d H =>
  WindowsOk (d ∪ c) ∧ WindowChange H c (d ∪ c) ∧ Moved op a c (d ∪ c)

variable {env : Env M S} {op : Op M} {a : Result} {c d : Db M S} {H : Key → Prop}

theorem get_inside (h : (Inside Key.elsewhere : Assn (Row M S)) c d H) {k : Key}
    (hk : k.windowed) : (d ∪ c : Db M S).get k = c.get k :=
  h.get fun he => he hk

theorem get_inside_applyAll (h : (Inside Key.elsewhere : Assn (Row M S)) c d H) {k : Key}
    (hk : k.windowed) (ws : List (Write (Row M S))) :
    (d.applyAll ws ∪ c : Db M S).get k = (c.applyAll ws).get k := by
  rw [applyAll_union]
  exact get_applyAll_at (get_inside h hk)

theorem owed_elsewhere (hc : WindowsOk c) (h : (Inside Key.elsewhere : Assn (Row M S)) c d H)
    (hanswer : ∀ u k x, op.commandKey = some (u, k) → a = .answer x →
      ∃ r : CommandRow, c.get (Key.command u k) = some r ∧ r.response = x.1) :
    Owed op a c d H :=
  commit_elsewhere hc (fun _ hk => get_inside h hk) hanswer

/-! ### Transactions of other tables -/

section Elsewhere

variable {call : SuggestCall}

theorem elsewhere_of_suggested {k : Key} (hk : k.suggested) : k.elsewhere := by
  cases k with
  | suggestion id => exact fun h => h
  | event e => exact fun h => h
  | _ => cases hk

theorem writes_requireSuggestion : (requireSuggestion env call).Writes Key.elsewhere := by
  unfold requireSuggestion
  exact (writes_leaderboardSuggestions.mono fun _ => elsewhere_of_suggested).bind fun _ =>
    .bind .select fun _ => .raiseIf

theorem writes_expireWindowPairs :
    (expireWindowPairs windowId : Tx M S ℕ).Writes Key.elsewhere := by
  refine .statement fun v x hx => ?_
  obtain ⟨k, r, -, hpick⟩ := mem_table.mp hx
  obtain ⟨o, ho, rfl⟩ := map_eq_some_iff.mp hpick
  cases k with
  | pair id => exact fun hk => hk
  | _ => cases ho

end Elsewhere

theorem triple_elsewhere {α : Type} {p : Tx M S α} {n : α → ℕ} (hp : p.Writes Key.elsewhere)
    (hkey : op.commandKey = none) :
    windows.Triple OpensApart (Inside Key.elsewhere) (p >>= fun x => return Result.count (n x))
      fun a => Owed op a := by
  refine .bind (.inside hp) fun x => .done fun c d H hc hd => ?_
  exact owed_elsewhere hc hd fun u k _ hk _ => by rw [hkey] at hk; cases hk

/-! ### The commands -/

theorem triple_replayCommand {command : CommandRow} {status : ℕ}
    (hkey : op.commandKey = some (u, k)) :
    windows.Triple OpensApart (fun c d H => Inside Key.elsewhere c d H ∧
        c.get (Key.command u k) = some command)
      (replayCommand command requestHash status : Tx M S Answer)
      fun a => Owed op (.answer a) := by
  unfold replayCommand
  refine (Triple.raiseIf (ψ := fun _ (c : Db M S) d H => Inside Key.elsewhere c d H ∧
    c.get (Key.command u k) = some command) fun _ _ _ _ _ h => h).bind fun _ => ?_
  refine .done fun c d H hc h => owed_elsewhere hc h.1 fun u' k' x hkey' hx => ?_
  rw [hkey] at hkey'
  cases hkey'
  cases hx
  exact ⟨command, h.2, rfl⟩

theorem triple_readCommand :
    windows.Triple OpensApart (Inside Key.elsewhere)
      (readRow (Key.command u k) : Tx M S (Option CommandRow))
      fun o c d H => (Inside Key.elsewhere : Assn (Row M S)) c d H ∧
        ∀ command : CommandRow, o = some command →
          (c.get (Key.command u k) : Option CommandRow) = some command := by
  refine .select fun c d H hc h c' hr => ⟨h c' hr, fun command hcommand => ?_⟩
  have hget : c.get (Key.command u k) = some (command : Row M S (.command u k)) := by
    rw [← get_inside (h.now hc) (k := .command u k) trivial]
    exact hcommand
  exact hr.guar.command u k command hget

/-- The writes of the command that opens a window. -/
def openWrites (windowId : String) (w : WindowRow) : List (Write (Row M S)) :=
  [⟨.window windowId, some w⟩, ⟨.openWindow, some windowId⟩]

/-- The window is inserted, under the lock of the index entry, and none is closing. -/
def Opening (windowId : String) (w : WindowRow) : Assn (Row M S) := fun c d H =>
  ∃ d₀, (Inside Key.elsewhere : Assn (Row M S)) c d₀ H ∧ d = d₀.applyAll (openWrites windowId w) ∧
    c.get (Key.window windowId) = none ∧ c.get Key.openWindow = none ∧ (∀ id, stage c id ≠ 2) ∧
    H .openWindow

theorem triple_createWindow {w : WindowRow} :
    windows.Triple OpensApart (Inside Key.elsewhere) (createWindow windowId w : Tx M S Unit)
      fun _ => Opening windowId w := by
  unfold createWindow
  refine .insert fun c d H hc h htaken hC c' hr => ?_
  have hd := h.now hc
  simp only [taken, any_cons, any_nil, Bool.or_false, Bool.or_eq_false_iff,
    isSome_eq_false_iff, isNone_iff_eq_none] at htaken
  rw [get_inside hd (k := .window windowId) trivial,
    get_inside hd (k := .openWindow) trivial] at htaken
  -- no window starts closing while the index entry is locked
  have hnone : ∀ id, stage c id ≠ 2 := by
    intro id
    rw [← stage_of_get (get_inside hd (k := .window id) trivial)]
    exact hC windowId (by simp) id
  have hwindow : writing H (openWrites (M := M) (S := S) windowId w) (.window windowId) :=
    .inr (by simp [openWrites])
  have hindex : writing H (openWrites (M := M) (S := S) windowId w) .openWindow :=
    .inr (by simp [openWrites])
  refine ⟨d, hd, rfl, (hr.rows _ hwindow).trans htaken.1, (hr.rows _ hindex).trans htaken.2,
    fun id h2 => ?_, hindex⟩
  rcases hr.guar.closing id h2 with h2 | hnot
  · exact hnone id h2
  · exact hnot hindex

theorem triple_openCommand {w : WindowRow} {r : CommandRow} {status : ℕ}
    (hkey : op.commandKey = some (u, k)) (hstatus : w.status = .isOpen)
    (hresponse : r.response = (windowId, w)) :
    windows.Triple OpensApart (Opening windowId w)
      (insertCommand u k r >>= fun _ => return ((windowId, w), status) : Tx M S Answer)
      fun a => Owed op (.answer a) := by
  unfold insertCommand
  refine (Triple.insert (ψ := fun _ c d H =>
    (∃ d₀, (Inside Key.elsewhere : Assn (Row M S)) c d₀ H ∧
      d = d₀.applyAll (openWrites windowId w ++ [⟨.command u k, some r⟩])) ∧
    c.get (Key.window windowId) = none ∧ c.get Key.openWindow = none ∧ (∀ id, stage c id ≠ 2) ∧
    c.get (Key.command u k) = none ∧ H .openWindow) ?_).bind fun _ => .done ?_
  · intro c d H hc h htaken _ c' hr
    obtain ⟨d₀, hd₀, rfl, -⟩ := h.now hc
    have hfree : c.get (Key.command u k) = none := by
      have htaken' : (d₀.applyAll (openWrites windowId w) ∪ c : Db M S).get (Key.command u k)
          = none := by
        simpa [taken] using htaken
      rw [get_inside_applyAll hd₀ (k := .command u k) trivial,
        get_applyAll_of_notMem (by simp [openWrites])] at htaken'
      exact htaken'
    -- the command's key is locked, and what was known before still holds
    obtain ⟨d₁, -, -, hwindow, hindex, hnone, hlock⟩ :=
      h c' (hr.mono fun _ hk => Or.inl hk)
    refine ⟨⟨d₀, hd₀, (applyAll_append ..).symm⟩, hwindow, hindex, hnone, ?_, .inl hlock⟩
    exact (hr.rows (.command u k) (.inr (by simp))).trans hfree
  · rintro c d H hc ⟨⟨d₀, hd₀, rfl⟩, hwindow, hindex, hnone, hcommand, hlock⟩
    exact commit_opens hc hwindow hindex hnone hcommand hkey hstatus hresponse hlock
      fun k' hk' => get_inside_applyAll hd₀ hk' _

theorem triple_openNew {call : OpenCall} {kind : WindowKind} :
    windows.Triple OpensApart (Inside Key.elsewhere) (openNew env call kind requestHash)
      fun a => Owed (.openWindow call : Op M) (.answer a) := by
  have hidle : ∀ {α : Type} {p : Tx M S α}, p.Writes Key.elsewhere →
      windows.Triple OpensApart (Inside Key.elsewhere) p fun _ => Inside Key.elsewhere :=
    fun hp => .inside hp
  unfold openNew
  refine (hidle .select).bind fun existing => ?_
  refine (hidle .raiseIf).bind fun _ => ?_
  refine (hidle .select).bind fun closing => ?_
  refine (hidle .raiseIf).bind fun _ => ?_
  refine (hidle .select).bind fun latest => ?_
  refine (hidle .check).bind fun _ => ?_
  refine (hidle (.ite (fun _ => .done) fun _ => writes_requireSuggestion)).bind fun _ => ?_
  exact triple_createWindow.bind fun _ => triple_openCommand rfl rfl rfl

theorem triple_openWindow {call : OpenCall} :
    windows.Triple OpensApart (Inside Key.elsewhere) (openWindow env call)
      fun a => Owed (.openWindow call : Op M) (.answer a) := by
  unfold openWindow requireOps
  refine .bind (.inside Prog.Writes.raiseIf) fun _ => ?_
  refine .bind (.inside Prog.Writes.raiseIf) fun _ => ?_
  refine .bind (.inside Prog.Writes.orRaise) fun kind => ?_
  refine triple_readCommand.bind fun command => ?_
  cases command with
  | none => exact triple_openNew.pre fun _ _ _ _ h => h.1
  | some command =>
    exact (triple_replayCommand rfl).pre fun _ _ _ _ h => ⟨h.1, h.2 command rfl⟩

/-! ### Closing -/

/-- The window is closing, under the lock of the index entry. -/
def Closing (windowId : String) (w : WindowRow) (by' : String) (deadline : Time) :
    Assn (Row M S) := fun c d H =>
  (∃ d₀, (Inside Key.elsewhere : Assn (Row M S)) c d₀ H ∧
    d = d₀.applyAll [⟨.window windowId, some (w.close by' deadline)⟩, ⟨.openWindow, none⟩]) ∧
  c.get (Key.window windowId) = some w ∧ w.status = .isOpen ∧ H .openWindow

theorem triple_closeOpen {by' : String} {deadline : Time} :
    windows.Triple OpensApart (Inside Key.elsewhere)
      (closeOpen windowId by' deadline : Tx M S ℕ)
      fun n c d H => n = 1 → ∃ w, Closing windowId w by' deadline c d H := by
  unfold closeOpen
  refine .statement fun c d H hinv h _ => ?_
  have hd := h.now hinv
  cases hfound : (((d ∪ c : Db M S).get (Key.window windowId)).filter
      fun w : WindowRow => w.status = .isOpen) with
  | none =>
    intro c' _ hn
    simp at hn
  | some w =>
    intro c' hr _
    obtain ⟨hget, hstatus⟩ := filter_eq_some_iff.mp hfound
    rw [get_inside hd (k := .window windowId) trivial] at hget
    refine ⟨w, ⟨d, hd, rfl⟩, ?_, by simpa using hstatus, .inr (by simp [needed, hfound])⟩
    exact (hr.rows (.window windowId) (.inr (by simp [needed, hfound]))).trans hget

theorem closing_steps {by' : String} {deadline : Time} {w : WindowRow} {r : CommandRow}
    {d₀ : Db M S} (hd₀ : (Inside Key.elsewhere : Assn (Row M S)) c d₀ H)
    (hwindow : c.get (Key.window windowId) = some w) (hopen : w.status = .isOpen)
    (hlock : H .openWindow) (hcommand : c.get (Key.command u k) = none) :
    Steps H windowId w (w.close by' deadline) c (d₀.applyAll
      [⟨.window windowId, some (w.close by' deadline)⟩, ⟨.openWindow, none⟩,
        ⟨.command u k, some r⟩] ∪ c) where
  before := hwindow
  after := by
    rw [get_inside_applyAll hd₀ (k := .window windowId) trivial]
    simp [get_set_of_ne]
  others id' hne := by
    rw [get_inside_applyAll hd₀ (k := .window id') trivial]
    simp [get_set_of_ne, hne]
  index := by
    rw [get_inside_applyAll hd₀ (k := .openWindow) trivial, if_pos ⟨hopen, by simp [WindowRow.close]⟩]
    simp [get_set_of_ne]
  status := .inr (.inl ⟨hopen, rfl⟩)
  deadline hne := absurd hopen hne
  hasDeadline _ _ := rfl
  lock _ _ := hlock
  command u' k' r' hr' := by
    rw [get_inside_applyAll hd₀ (k := .command u' k') trivial]
    by_cases he : Key.command u' k' = .command u k
    · cases he
      rw [hcommand] at hr'
      cases hr'
    · simp [get_set_of_ne, he, hr']

theorem triple_closeNew {call : CloseCall} :
    windows.Triple OpensApart (Inside Key.elsewhere) (closeNew call requestHash : Tx M S Answer)
      fun a => Owed (.closeWindow call : Op M) (.answer a) := by
  unfold closeNew
  refine (Triple.inside Prog.Writes.select).bind fun existing => ?_
  refine (Triple.inside Prog.Writes.orRaise).bind fun window => ?_
  refine (Triple.inside Prog.Writes.readRow).bind fun policy => ?_
  generalize call.now + 1000000 * (Option.map PolicyRow.closeGraceSeconds policy).getD 3600
    = deadline
  refine triple_closeOpen.bind fun n => ?_
  refine (Triple.raiseIf (ψ := fun _ c d H => ∃ w, Closing window.1 w call.userId deadline c d H)
    fun hn _ _ _ _ h => h (by simpa using hn)).bind fun _ => ?_
  refine (Triple.select (ψ := fun o c d H => ∃ w, Closing window.1 w call.userId deadline c d H ∧
    o = some (w.close call.userId deadline)) fun c d H hc h c' hr => ?_).bind fun row => ?_
  · obtain ⟨w, ⟨d₀, hd₀, rfl⟩, hwindow, hopen, hlock⟩ := h.now hc
    obtain ⟨w', ⟨d₁, hd₁, hsame⟩, hrest⟩ := h c' hr
    have hrow : ∀ (d₂ : Db M S) (v : WindowRow),
        (d₂.applyAll [⟨.window window.1, some (v.close call.userId deadline)⟩,
          ⟨.openWindow, none⟩] ∪ c : Db M S).get (Key.window window.1)
          = some (v.close call.userId deadline) := by
      intro d₂ v
      rw [applyAll_union]
      simp [get_set_of_ne]
    refine ⟨w', ⟨⟨d₁, hd₁, hsame⟩, hrest⟩, ?_⟩
    rw [hsame]
    exact hrow d₁ w'
  refine (Triple.orRaise (ψ := fun closed c d H => ∃ w,
    Closing window.1 w call.userId deadline c d H ∧ closed = w.close call.userId deadline)
    fun closed hclosed c d H _ h => ?_).bind fun closed => ?_
  · obtain ⟨w, hw, hrow⟩ := h
    rw [hclosed] at hrow
    exact ⟨w, hw, some.inj hrow⟩
  unfold insertCommand
  generalize hr : (⟨.closeWindow, requestHash, window.1, (window.1, closed)⟩ : CommandRow) = r
  refine (Triple.insert (ψ := fun _ c d H => ∃ w d₀,
    (Inside Key.elsewhere : Assn (Row M S)) c d₀ H ∧
    d = d₀.applyAll [⟨.window window.1, some (w.close call.userId deadline)⟩, ⟨.openWindow, none⟩,
      ⟨.command call.userId call.idempotencyKey, some r⟩] ∧
    c.get (Key.window window.1) = some w ∧ w.status = .isOpen ∧ H .openWindow ∧
    c.get (Key.command call.userId call.idempotencyKey) = none) ?_).bind fun _ => .done ?_
  · intro c d H hc h htaken _ c' hrely
    obtain ⟨w, ⟨⟨d₀, hd₀, rfl⟩, hwindow, hopen, hlock⟩, -⟩ := h.now hc
    have hfree : c.get (Key.command call.userId call.idempotencyKey) = none := by
      have htaken' : (d₀.applyAll [⟨.window window.1, some (w.close call.userId deadline)⟩,
          ⟨.openWindow, none⟩] ∪ c : Db M S).get (Key.command call.userId call.idempotencyKey)
          = none := by
        simpa [taken] using htaken
      rw [get_inside_applyAll hd₀ (k := .command call.userId call.idempotencyKey) trivial,
        get_applyAll_of_notMem (by simp)] at htaken'
      exact htaken'
    obtain ⟨w', ⟨⟨d₁, hd₁, hsame⟩, hwindow', hopen', hlock'⟩, -⟩ :=
      h c' (hrely.mono fun _ hk => Or.inl hk)
    refine ⟨w', d₁, hd₁, ?_, hwindow', hopen', .inl hlock', ?_⟩
    · rw [hsame]
      rfl
    · exact (hrely.rows (.command _ _) (.inr (by simp))).trans hfree
  · rintro c d H hc ⟨w, d₀, hd₀, rfl, hwindow, hopen, hlock, hcommand⟩
    have hstep : Steps H window.1 w (w.close call.userId deadline) c (d₀.applyAll
        [⟨.window window.1, some (w.close call.userId deadline)⟩, ⟨.openWindow, none⟩,
          ⟨.command call.userId call.idempotencyKey, some r⟩] ∪ c) :=
      closing_steps hd₀ hwindow hopen hlock hcommand
    refine ⟨hstep.ok hc, hstep.change, hstep.edge, fun id hne _ => ?_, fun u k x hkey hx => ?_,
      fun id h2 h3 => ?_⟩
    · have hid : id = window.1 := by
        by_contra hne'
        exact hne (hstep.stage_of_ne hne')
      subst hid
      exact ⟨_, _, _, _, rfl, rfl, hcommand⟩
    · cases hkey
      cases hx
      refine ⟨r, ?_, by rw [← hr]⟩
      rw [get_inside_applyAll hd₀ (k := .command call.userId call.idempotencyKey) trivial]
      simp
    · by_cases hne : id = window.1
      · subst hne
        have hone : stage c window.1 = 1 := stage_eq_one.mpr ⟨w, hwindow, hopen⟩
        omega
      · rw [hstep.stage_of_ne hne] at h3
        omega

theorem triple_closeWindow {call : CloseCall} :
    windows.Triple OpensApart (Inside Key.elsewhere) (closeWindow env call)
      fun a => Owed (.closeWindow call : Op M) (.answer a) := by
  unfold closeWindow requireOps
  refine .bind (.inside Prog.Writes.raiseIf) fun _ => ?_
  refine triple_readCommand.bind fun command => ?_
  cases command with
  | none => exact triple_closeNew.pre fun _ _ _ _ h => h.1
  | some command =>
    exact (triple_replayCommand rfl).pre fun _ _ _ _ h => ⟨h.1, h.2 command rfl⟩

/-! ### The worker -/

theorem triple_updateWindow {cond : WindowRow → Bool} {g : WindowRow → WindowRow} {f : ℕ → Result}
    (hkey : op.commandKey = none) (hdeadline : ∀ w, (g w).closeDeadlineAt = w.closeDeadlineAt)
    (hstatus : ∀ w, cond w = true → (g w).status = w.status ∨
      (w.status = .closing ∧ (g w).status = .closed ∧ ∃ now, op = .closeWorker now)) :
    windows.Triple OpensApart (Inside Key.elsewhere)
      (updateWhere (.window windowId) cond g : Tx M S ℕ) fun n => Owed op (f n) := by
  refine .updateWhere (fun c d H hc h _ => ?_) fun c d H w hc h hget hcond _ c' hr => ?_
  · exact fun c' hr => owed_elsewhere hr.inv (h c' hr) fun u k x hk _ => by
      rw [hkey] at hk
      cases hk
  have hd : (Inside Key.elsewhere : Assn (Row M S)) c d H := h.now hc
  rw [get_inside hd (k := .window windowId) trivial] at hget
  have hwindow : c'.get (Key.window windowId) = some w :=
    (hr.rows (.window windowId) (.inr rfl)).trans hget
  have hrow : ∀ k : Key, k.windowed → (d.set (.window windowId) (some (g w)) ∪ c' : Db M S).get k
      = (c'.set (.window windowId) (some (g w))).get k :=
    fun k hk => get_inside_applyAll (c := c') (H := H) hd hk [⟨.window windowId, some (g w)⟩]
  have hchange := hstatus w hcond
  have hopens : w.status = .isOpen → (g w).status = .isOpen := by
    intro hopen
    rcases hchange with hsame | ⟨hclosing, -⟩
    · exact hsame.trans hopen
    · rw [hopen] at hclosing
      cases hclosing
  have hstays : w.status = .isOpen → (g w).status ≠ .closing := fun hopen hclosing => by
    rw [hopens hopen] at hclosing
    cases hclosing
  have hstep : Steps (fun k => H k ∨ k = .window windowId) windowId w (g w) c'
      (d.set (.window windowId) (some (g w)) ∪ c') :=
    { before := hwindow
      after := by
        rw [hrow (.window windowId) trivial]
        simp
      others := fun id' hne => by
        rw [hrow (.window id') trivial]
        simp [get_set_of_ne, hne]
      index := by
        rw [hrow .openWindow trivial, if_neg fun hx => hx.2 (hopens hx.1)]
        simp [get_set_of_ne]
      status := hchange.imp_right fun hx => .inr ⟨hx.1, hx.2.1⟩
      deadline := fun _ => hdeadline w
      hasDeadline := fun hopen hclosing => absurd hclosing (hstays hopen)
      lock := fun hopen hclosing => absurd hclosing (hstays hopen)
      command := fun u k r hcommand => by
        rw [hrow (.command u k) trivial]
        simpa [get_set_of_ne] using hcommand }
  refine ⟨hstep.ok hr.inv, hstep.change, hstep.edge, fun id hne hnot => ?_, fun u k x hk _ => ?_,
    fun id h2 h3 => ?_⟩
  · -- a window that moves is closed for good
    by_cases hid : id = windowId
    · subst hid
      rcases hstep.stage_self with hsame | ⟨-, -, hopen, hclosing⟩ | ⟨-, h3⟩
      · exact absurd hsame hne
      · exact absurd hclosing (hstays hopen)
      · exact absurd h3 hnot
    · exact absurd (hstep.stage_of_ne hid) hne
  · rw [hkey] at hk
    cases hk
  · rcases hchange with hsame | ⟨-, -, hop⟩
    · by_cases hid : id = windowId
      · subst hid
        rcases hstep.stage_self with hs | ⟨h1, -⟩ | ⟨-, h3'⟩
        · omega
        · omega
        · obtain ⟨w₂, hw₂, hclosing⟩ := stage_eq_two.mp h2
          rw [hwindow] at hw₂
          cases hw₂
          have hafter : stage _ id = 2 :=
            stage_eq_two.mpr ⟨g w, hstep.after, hsame.trans hclosing⟩
          omega
      · have hs := hstep.stage_of_ne hid
        omega
    · exact hop

theorem triple_idle {n : ℕ} :
    windows.Triple OpensApart (Inside Key.elsewhere) (.done n : Tx M S ℕ)
      fun n => Owed (.closeWorker now : Op M) (.count n) :=
  .done fun c d H hc hd => owed_elsewhere hc hd fun _ _ _ hk _ => by cases hk

theorem triple_finalizeWindow :
    windows.Triple OpensApart (Inside Key.elsewhere) (finalizeWindow windowId now : Tx M S ℕ)
      fun n => Owed (.closeWorker now : Op M) (.count n) := by
  unfold finalizeWindow
  refine triple_updateWindow rfl (fun _ => rfl) fun w hw => .inr ?_
  exact ⟨of_decide_eq_true hw, rfl, now, rfl⟩

theorem triple_closeFound {window : WindowRow} :
    windows.Triple OpensApart (Inside Key.elsewhere) (closeFound env now windowId window)
      fun n => Owed (.closeWorker now : Op M) (.count n) := by
  unfold closeFound requirePairExpiry
  by_cases hdue : window.closeDeadlineAt.any (· ≤ now) = true
  · rw [if_pos hdue]
    refine .bind (.inside Prog.Writes.raiseIf) fun _ => ?_
    exact .bind (.inside writes_expireWindowPairs) fun _ => triple_finalizeWindow
  · rw [if_neg hdue]
    refine .bind (.inside Prog.Writes.raiseIf) fun _ => ?_
    refine .bind (.inside Prog.Writes.select) fun votable => ?_
    cases votable with
    | true => exact triple_idle
    | false => exact triple_finalizeWindow

theorem triple_closeWorker :
    windows.Triple OpensApart (Inside Key.elsewhere) (closeWorker env now)
      fun n => Owed (.closeWorker now : Op M) (.count n) := by
  unfold closeWorker
  refine .bind (.inside Prog.Writes.select) fun found => ?_
  cases found with
  | none => exact triple_idle
  | some window => exact triple_closeFound

/-! ### All transactions -/

theorem triple_body :
    windows.Triple OpensApart (Inside Key.elsewhere) (body env op) fun a => Owed op a := by
  have hrows : ∀ {α : Type} {p : Tx M S α} {n : α → ℕ}, p.Writes Key.elsewhere →
      op.commandKey = none → windows.Triple OpensApart (Inside Key.elsewhere)
        (p >>= fun x => return Result.count (n x)) fun a => Owed op a :=
    fun hp hkey => triple_elsewhere hp hkey
  cases op with
  | openWindow call => exact triple_openWindow.bind fun _ => .done fun _ _ _ _ h => h
  | closeWindow call => exact triple_closeWindow.bind fun _ => .done fun _ _ _ _ h => h
  | closeWorker now => exact triple_closeWorker.bind fun _ => .done fun _ _ _ _ h => h
  | computeSuggestion call runId =>
    exact hrows (writes_computeSuggestion.mono fun _ => elsewhere_of_suggested) rfl
  | leaderboard call spaceId comparatorKey =>
    exact hrows (writes_leaderboardSuggestions.mono fun _ => elsewhere_of_suggested) rfl
  | collectPair windowId =>
    have hcollect : windows.Triple OpensApart (Inside Key.elsewhere)
        (collectPair windowId : Tx M S Unit) fun _ => Owed (.collectPair windowId) (.count 0) := by
      unfold collectPair
      refine .bind (ψ := fun _ => Owed (.collectPair windowId) (.count 0)) ?_
        fun _ => .done fun _ _ _ _ h => h
      exact triple_updateWindow rfl (fun _ => rfl) fun w _ => .inl rfl
    exact hcollect.bind fun _ => .done fun _ _ _ _ h => h
  | setPairs pairs =>
    refine hrows (.statement fun v x hx => ?_) rfl
    obtain ⟨p, -, rfl⟩ := List.mem_map.mp hx
    exact fun hk => hk
  | changeRun runId row =>
    refine hrows (.statement fun v x hx => ?_) rfl
    split at hx
    · cases hx
    · rw [mem_singleton.mp hx]
      exact fun hk => hk
  | setResult runId item config row =>
    refine hrows (.statement fun v x hx => ?_) rfl
    rw [mem_singleton.mp hx]
    exact fun hk => hk
  | setPolicy row =>
    refine hrows (.statement fun v x hx => ?_) rfl
    rw [mem_singleton.mp hx]
    exact fun hk => hk
  | setDefault spaceId row =>
    refine hrows (.statement fun v x hx => ?_) rfl
    rw [mem_singleton.mp hx]
    exact fun hk => hk

/-- **Every transaction keeps the windows apart.** -/
theorem verified : Verified (windows : Discipline (Row M S))
    (fun _ => onWrites OpensApart) (body env) (fun op _ a c c' => Moved op a c c')
    fun _ _ _ _ => True where
  wp op _ hc := (triple_body : windows.Triple OpensApart _ (body env op) _).commit hc
    (fun _ _ k hk => absurd hk (AList.notMem_empty k)) fun _ _ _ _ _ h => h

end RagQs.Evaluation
