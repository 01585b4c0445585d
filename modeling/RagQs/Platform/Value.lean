import Mathlib

/-!
# Values and errors

What the services share: text validation, the values that go into fingerprints and
error details, and the errors a transaction can end with.  A time is a number of
microseconds of UTC, so `as_utc` is the identity.

## Main definitions

* `strip`, `pyRepr` — the two string operations of the source language in use.
* `Decimal`, `Val` — decimals, and the values fingerprints and details are made of.
* `PlatformError`, `Err` — the errors.
* `requireText`, `optionalText` — the text validators.
-/

namespace RagQs

variable {α : Type}

/-- Microseconds of UTC. -/
abbrev Time := ℤ

/-! ### Text -/

/-- The characters `str.strip` removes. -/
def isSpace (c : Char) : Bool :=
  let n := c.toNat
  (9 ≤ n && n ≤ 13) || (0x1C ≤ n && n ≤ 0x20) || n == 0x85 || n == 0xA0 || n == 0x1680 ||
    (0x2000 ≤ n && n ≤ 0x200A) || n == 0x2028 || n == 0x2029 || n == 0x202F || n == 0x205F ||
    n == 0x3000

/-- `str.strip`: the text without the white space around it. -/
def strip (s : String) : String :=
  String.ofList ((s.toList.dropWhile isSpace).reverse.dropWhile isSpace).reverse

theorem strip_strip (s : String) : strip (strip s) = strip s := by
  have hr : ∀ l : List Char, (l.reverse.dropWhile isSpace).reverse = l.rdropWhile isSpace :=
    fun _ => rfl
  unfold strip
  simp only [String.toList_ofList, hr]
  generalize hl : s.toList.dropWhile isSpace = l
  have hhead : ∀ c ∈ l.head?, isSpace c = false := by
    intro c hc
    subst hl
    have := List.head?_dropWhile_not isSpace s.toList
    rw [Option.mem_def.mp hc] at this
    simpa using this
  have hpre : (l.rdropWhile isSpace).dropWhile isSpace = l.rdropWhile isSpace := by
    refine List.dropWhile_eq_self_iff.mpr fun hpos hsp => ?_
    -- what is left at the end begins as the text does
    have hp := List.rdropWhile_prefix isSpace l
    have hmem : (l.rdropWhile isSpace)[0] ∈ l.head? := by
      rw [List.head?_eq_getElem?, List.getElem?_eq_getElem (hpos.trans_le hp.length_le)]
      exact congrArg some (hp.getElem hpos).symm
    have := hhead _ hmem
    rw [this] at hsp
    cases hsp
  rw [hpre, List.rdropWhile_idempotent]

/-- The escape of one character in a `repr` quoted with `q`. -/
def escapeChar (q c : Char) : List Char :=
  if c == q || c == '\\' then ['\\', c]
  else if c == '\n' then ['\\', 'n']
  else if c == '\r' then ['\\', 'r']
  else if c == '\t' then ['\\', 't']
  else [c]

/-- `repr` of a text of printable characters, tabs and line ends. -/
def pyRepr (s : String) : String :=
  let cs := s.toList
  let q := if cs.contains '\'' && !cs.contains '"' then '"' else '\''
  String.ofList ([q] ++ cs.flatMap (escapeChar q) ++ [q])

/-- `repr` of a list of texts. -/
def pyReprList (l : List String) : String :=
  "[" ++ String.intercalate ", " (l.map pyRepr) ++ "]"

/-! ### Values -/

/-- A finite decimal: sign, coefficient and exponent of ten.  Two decimals of one
value may differ in their exponent, and then also in their text. -/
structure Decimal where
  neg : Bool
  coeff : ℕ
  exp : ℤ
  deriving DecidableEq

/-- A decimal argument, which may be an infinity or a NaN. -/
inductive DecimalArg
  | finite (d : Decimal)
  | special
  deriving DecidableEq

/-- The values that fingerprints and error details are made of. -/
inductive Val
  | null
  | bool (b : Bool)
  | int (n : ℤ)
  | str (s : String)
  | decimal (d : Decimal)
  | datetime (t : Time)
  | list (l : List Val)
  | dict (l : List (String × Val))

/-- A text or null. -/
def Val.optStr : Option String → Val
  | none => .null
  | some s => .str s

/-- An integer or null. -/
def Val.optInt : Option ℤ → Val
  | none => .null
  | some n => .int n

/-! ### Errors -/

/-- The error of the application: a stable code, a message, details and a status. -/
structure PlatformError where
  code : String
  message : String
  details : List (String × Val) := []
  statusCode : ℕ := 500
  retryable : Bool := false

/-- What can make a transaction roll back. -/
inductive Err
  /-- An error the application raised. -/
  | platform (e : PlatformError)
  /-- A constraint of the schema is violated. -/
  | integrity
  /-- An error of the runtime: no row where one is required, a value of a wrong type or
  one that does not fit its column. -/
  | internal (what : String)
  /-- A callback of the caller raised. -/
  | callback (what : String)

/-- The code of an application error. -/
def Err.code : Err → Option String
  | .platform e => some e.code
  | _ => none

/-- A validation error, status 422. -/
def validationError (message : String) : Err :=
  .platform { code := "validation_error", message, statusCode := 422 }

/-! ### Text validators -/

/-- `_require_text`: the text without the white space around it; it may not be empty
nor longer than `maxLen`. -/
def requireText (value name : String) (maxLen : ℕ) : Except Err String :=
  let textValue := strip value
  if textValue = "" then
    .error (validationError (name ++ " must be a non-empty string"))
  else if maxLen < textValue.length then
    .error (validationError (name ++ " must be at most " ++ toString maxLen ++ " characters"))
  else .ok textValue

theorem requireText_ok {value name text : String} {maxLen : ℕ}
    (h : requireText value name maxLen = .ok text) : text = strip value := by
  unfold requireText at h
  simp only at h
  split at h
  · cases h
  · split at h
    · cases h
    · cases h
      rfl

/-- `_optional_text`: the same for a text that may be absent. -/
def optionalText (value : Option String) (name : String) (maxLen : ℕ) :
    Except Err (Option String) :=
  match value with
  | none => .ok none
  | some s => (requireText s name maxLen).map some

theorem exists_of_bind_ok {ε β : Type} {x : Except ε α} {f : α → Except ε β} {b : β}
    (h : x >>= f = .ok b) : ∃ a, x = .ok a ∧ f a = .ok b := by
  cases x with
  | ok a => exact ⟨a, rfl, h⟩
  | error e => cases h

/-- A computation that refuses with validation errors only. -/
def OnlyValidates {α : Type} (x : Except Err α) : Prop :=
  ∀ e, x = .error e → e.code = some "validation_error"

theorem OnlyValidates.ok (a : α) : OnlyValidates (.ok a : Except Err α) :=
  fun _ h => by cases h

theorem OnlyValidates.error (m : String) :
    OnlyValidates (.error (validationError m) : Except Err α) :=
  fun _ h => by
    cases h
    rfl

theorem OnlyValidates.bind {β : Type} {x : Except Err α} {f : α → Except Err β}
    (hx : OnlyValidates x) (hf : ∀ a, OnlyValidates (f a)) : OnlyValidates (x >>= f) := by
  intro e h
  cases x with
  | error e' =>
    cases h
    exact hx _ rfl
  | ok a => exact hf a e h

theorem OnlyValidates.ite {p : Prop} [Decidable p] {x y : Except Err α} (hx : OnlyValidates x)
    (hy : OnlyValidates y) : OnlyValidates (if p then x else y) := by
  by_cases h : p
  · rwa [if_pos h]
  · rwa [if_neg h]

theorem onlyValidates_requireText (value name : String) (maxLen : ℕ) :
    OnlyValidates (requireText value name maxLen) :=
  .ite (.error _) (.ite (.error _) (.ok _))

theorem onlyValidates_optionalText (value : Option String) (name : String) (maxLen : ℕ) :
    OnlyValidates (optionalText value name maxLen) := by
  cases value with
  | none => exact .ok none
  | some s =>
    intro e h
    cases hr : requireText s name maxLen with
    | ok t =>
      simp only [optionalText, hr] at h
      cases h
    | error e' =>
      simp only [optionalText, hr] at h
      cases h
      exact onlyValidates_requireText s name maxLen _ hr

theorem OnlyValidates.mapM {β : Type} {f : α → Except Err β} {l : List α}
    (hf : ∀ a, OnlyValidates (f a)) : OnlyValidates (l.mapM f) := by
  induction l with
  | nil => exact .ok []
  | cons a l ih =>
    rw [List.mapM_cons]
    exact (hf a).bind fun b => ih.bind fun bs => .ok (b :: bs)

end RagQs
