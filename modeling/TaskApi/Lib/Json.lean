/-
# JSON texts of strings, lists of strings and objects of strings

`json.dumps` with `ensure_ascii=False`: a string in quotes, with quotes,
backslashes and control characters escaped. A quoted string is read back
character by character (`readChar`), so what follows it is read back too
(`quote_append_inj`), and a list of strings is determined by its text
(`dumpsList_injective`).

Key definitions: `escapeChar`, `quote`, `dumpsList`, `dumpsObject`.
Key theorems: `readChar_escapeChar`, `quote_append_inj`, `dumpsList_injective`.
-/
import Mathlib.Data.List.Basic
import Mathlib.Tactic.IntervalCases

namespace JsonText

/-! ### Strings -/

/-- A hexadecimal digit. -/
def hexDigit (n : ℕ) : Char := Nat.digitChar n

/-- What stands in quotes for a character. -/
def escapeChar (c : Char) : List Char :=
  if c = '"' then ['\\', '"']
  else if c = '\\' then ['\\', '\\']
  else if c = '\n' then ['\\', 'n']
  else if c = '\r' then ['\\', 'r']
  else if c = '\t' then ['\\', 't']
  else if c = '\x08' then ['\\', 'b']
  else if c = '\x0c' then ['\\', 'f']
  else if c.toNat < 32 then ['\\', 'u', '0', '0', hexDigit (c.toNat / 16), hexDigit (c.toNat % 16)]
  else [c]

/-- A string in quotes. -/
def quote (s : List Char) : List Char := '"' :: (s.flatMap escapeChar ++ ['"'])

/-- The number of a hexadecimal digit. -/
def hexValue (c : Char) : ℕ := if c.isDigit then c.toNat - 48 else c.toNat - 87

/-- Reads one character of a quoted string, up to its end. -/
def readChar : List Char → Option (Char × List Char)
  | '\\' :: 'u' :: _ :: _ :: a :: b :: r => some (Char.ofNat (hexValue a * 16 + hexValue b), r)
  | '\\' :: 'n' :: r => some ('\n', r)
  | '\\' :: 'r' :: r => some ('\r', r)
  | '\\' :: 't' :: r => some ('\t', r)
  | '\\' :: 'b' :: r => some ('\x08', r)
  | '\\' :: 'f' :: r => some ('\x0c', r)
  | '\\' :: c :: r => some (c, r)
  | '"' :: _ => none
  | c :: r => some (c, r)
  | [] => none

theorem readChar_escapeChar (c : Char) (r : List Char) : readChar (escapeChar c ++ r) = some (c, r) := by
  unfold escapeChar
  split_ifs with h1 h2 h3 h4 h5 h6 h7 h8
  · subst h1
    rfl
  · subst h2
    rfl
  · subst h3
    rfl
  · subst h4
    rfl
  · subst h5
    rfl
  · subst h6
    rfl
  · subst h7
    rfl
  · -- a control character; there are few of them
    obtain ⟨n, hn⟩ : ∃ n, n = c.toNat := ⟨_, rfl⟩
    have hc : c = Char.ofNat n := by rw [hn, Char.ofNat_toNat]
    rw [← hn] at h8
    subst hc
    interval_cases n <;> rfl
  · simp [readChar, h2]

/-- A quoted string is read back, with what follows it. -/
theorem quote_append_inj : ∀ {s s' r r' : List Char}, quote s ++ r = quote s' ++ r' → s = s' ∧ r = r'
  | [], [], r, r', h => ⟨rfl, by simpa [quote] using h⟩
  | [], c :: s', r, r', h => by
    simp only [quote, List.flatMap_nil, List.flatMap_cons, List.nil_append, List.cons_append, List.append_assoc,
      List.cons.injEq, true_and] at h
    have hread := readChar_escapeChar c (s'.flatMap escapeChar ++ '"' :: r')
    rw [← h] at hread
    cases hread
  | c :: s, [], r, r', h => by
    simp only [quote, List.flatMap_nil, List.flatMap_cons, List.nil_append, List.cons_append, List.append_assoc,
      List.cons.injEq, true_and] at h
    have hread := readChar_escapeChar c (s.flatMap escapeChar ++ '"' :: r)
    rw [h] at hread
    cases hread
  | c :: s, c' :: s', r, r', h => by
    simp only [quote, List.flatMap_cons, List.nil_append, List.cons_append, List.append_assoc,
      List.cons.injEq, true_and] at h
    have hread := readChar_escapeChar c (s.flatMap escapeChar ++ '"' :: r)
    rw [h, readChar_escapeChar] at hread
    obtain ⟨rfl, hrest⟩ := Prod.mk.inj (Option.some.inj hread)
    obtain ⟨rfl, rfl⟩ := @quote_append_inj s s' r r' (by simp [quote, hrest])
    exact ⟨rfl, rfl⟩

/-! ### Lists -/

/-- What follows an element of a list. -/
def listRest (separator : List Char) : List String → List Char
  | [] => [']']
  | s :: l => separator ++ quote s.toList ++ listRest separator l

/-- The text of a list of strings. -/
def listText (separator : List Char) : List String → List Char
  | [] => ['[', ']']
  | s :: l => '[' :: (quote s.toList ++ listRest separator l)

/-- `json.dumps(l, ensure_ascii=False, separators=(separator, …))` -/
def dumpsList (separator : String) (l : List String) : String := String.ofList (listText separator.toList l)

theorem listRest_injective {separator : List Char} (hseparator : separator.head? = some ',') :
    ∀ {l l' : List String}, listRest separator l = listRest separator l' → l = l'
  | [], [], _ => rfl
  | [], s :: l, h => by
    have hhead := congrArg List.head? h
    simp [listRest, List.head?_append, hseparator] at hhead
  | s :: l, [], h => by
    have hhead := congrArg List.head? h
    simp [listRest, List.head?_append, hseparator] at hhead
  | s :: l, s' :: l', h => by
    simp only [listRest, List.append_assoc, List.append_cancel_left_eq] at h
    obtain ⟨hs, hl⟩ := quote_append_inj h
    rw [String.toList_injective hs, listRest_injective hseparator hl]

/-- A list of strings is determined by its text. -/
theorem dumpsList_injective {separator : String} (hseparator : separator.toList.head? = some ',') :
    (dumpsList separator).Injective := fun l l' h => by
  have h := String.ofList_injective h
  cases l with
  | nil =>
    cases l' with
    | nil => rfl
    | cons s' l' => simp [listText, quote] at h
  | cons s l =>
    cases l' with
    | nil => simp [listText, quote] at h
    | cons s' l' =>
      simp only [listText, List.cons.injEq, true_and] at h
      obtain ⟨hs, hl⟩ := quote_append_inj h
      rw [String.toList_injective hs, listRest_injective hseparator hl]

/-! ### Objects -/

/-- A member of an object. -/
def objectMember (m : String × String) : List Char := quote m.1.toList ++ [':', ' '] ++ quote m.2.toList

/-- `json.dumps(o, ensure_ascii=False)`, of strings under strings. -/
def dumpsObject (o : List (String × String)) : String :=
  String.ofList ('{' :: ((o.map objectMember).intersperse [',', ' ']).flatten ++ ['}'])

example : dumpsObject [("event_id", "a\"b"), ("increment_by", "3")] =
    "\x7b\"event_id\": \"a\\\"b\", \"increment_by\": \"3\"\x7d" := by decide +kernel

end JsonText
