import BlockScript.Token.Basic
import Mathlib.Data.List.TakeWhile

/-!
# Phrases

A *phrase* is a text in which every quote and every parenthesis is closed: ordinary characters,
quoted runs with their escapes, and groups in parentheses that hold any phrase. The reader of
quotes and parentheses leaves a phrase in the state in which it entered it (`Phrase.run`), and
inside a phrase it meets at the top level only the ordinary characters that stand there
(`Phrase.passes`, `Phrase.passes_deep`). So a splitter passes over a phrase that has none of its
separators at the top level, and a text put together from phrases is split where it was joined.

A *word* is a phrase without white space outside quotes and parentheses. Words joined by spaces
are the tokens of their line (`Chars.splitLine_intercalate`), and a token reads back as the text
it was made of (`Chars.unquote_formatToken`).
-/

namespace BlockScript

/-! ### White space -/

namespace Chars

/-- A text that does not start with white space is trimmed at its start already. -/
theorem trimStart_eq_self {cs : List Char} (h : ∀ c ∈ cs.head?, Text.isWhite c = false) :
    trimStart cs = cs := by
  cases cs with
  | nil => rfl
  | cons c cs => simp [trimStart, h c rfl]

/-- A text that does not end with white space is trimmed at its end already. -/
theorem trimEnd_eq_self {cs : List Char} (h : ∀ c ∈ cs.getLast?, Text.isWhite c = false) :
    trimEnd cs = cs := by
  rcases List.eq_nil_or_concat cs with rfl | ⟨front, c, rfl⟩
  · rfl
  · have hc := h c (by simp)
    simp [trimEnd, hc]

/-- A text that neither starts nor ends with white space is trimmed already. -/
theorem trim_eq_self {cs : List Char} (hhead : ∀ c ∈ cs.head?, Text.isWhite c = false)
    (hlast : ∀ c ∈ cs.getLast?, Text.isWhite c = false) : trim cs = cs := by
  rw [trim, trimStart_eq_self hhead, trimEnd_eq_self hlast]

/-- White space at the start does not matter to trimming. -/
theorem trimStart_append {white cs : List Char} (h : ∀ c ∈ white, Text.isWhite c = true) :
    trimStart (white ++ cs) = trimStart cs := by
  simp only [trimStart]
  exact List.dropWhile_append_of_pos h

/-- White space in front of a text is trimmed. -/
theorem trim_append {white cs : List Char} (h : ∀ c ∈ white, Text.isWhite c = true) :
    trim (white ++ cs) = trim cs := by
  rw [trim, trimStart_append h, trim]

/-- White space at the end does not matter to trimming. -/
theorem trimEnd_append {white cs : List Char} (h : ∀ c ∈ white, Text.isWhite c = true) :
    trimEnd (cs ++ white) = trimEnd cs := by
  rw [trimEnd, List.reverse_append, List.dropWhile_append_of_pos (by simpa using h), trimEnd]

/-- White space behind a text is trimmed. -/
theorem trim_append_white {white cs : List Char} (h : ∀ c ∈ white, Text.isWhite c = true) :
    trim (cs ++ white) = trim cs := by
  rw [trim, trimStart, List.dropWhile_append]
  split
  · next hcs =>
    have hwhite : white.dropWhile Text.isWhite = [] := List.dropWhile_eq_nil_iff.2 h
    rw [hwhite, trim, trimStart, List.isEmpty_iff.1 hcs]
  · rw [trimEnd_append h, trim, trimStart]

/-- No white space is left at the start. -/
theorem head?_trimStart (cs : List Char) : ∀ c ∈ (trimStart cs).head?, Text.isWhite c = false := by
  intro c hc
  have h := List.head?_dropWhile_not Text.isWhite cs
  rw [trimStart] at hc
  rw [Option.mem_def.1 hc] at h
  simpa using h

/-- No white space is left at the end. -/
theorem getLast?_trimEnd (cs : List Char) : ∀ c ∈ (trimEnd cs).getLast?,
    Text.isWhite c = false := by
  intro c hc
  refine head?_trimStart cs.reverse c ?_
  simpa [trimEnd, trimStart] using hc

/-- Trimming at the end leaves a front part. -/
theorem trimEnd_isPrefix (cs : List Char) : trimEnd cs <+: cs := by
  rw [trimEnd, ← List.reverse_suffix, List.reverse_reverse]
  exact List.dropWhile_suffix _

/-- Trimming at the start drops white space only. -/
theorem mem_trimStart {c : Char} {cs : List Char} (h : c ∈ cs) (hc : Text.isWhite c = false) :
    c ∈ trimStart cs := by
  rw [← List.takeWhile_append_dropWhile (p := Text.isWhite) (l := cs), List.mem_append] at h
  rcases h with h | h
  · rw [List.mem_takeWhile_imp h] at hc
    cases hc
  · exact h

/-- Trimming at the end drops white space only. -/
theorem mem_trimEnd {c : Char} {cs : List Char} (h : c ∈ cs) (hc : Text.isWhite c = false) :
    c ∈ trimEnd cs := by
  rw [trimEnd, List.mem_reverse]
  exact mem_trimStart (List.mem_reverse.2 h) hc

/-- Trimming drops white space only. -/
theorem mem_trim {c : Char} {cs : List Char} (h : c ∈ cs) (hc : Text.isWhite c = false) :
    c ∈ trim cs :=
  mem_trimEnd (mem_trimStart h hc) hc

/-- Dropping white space at the end keeps the first character that is none. -/
theorem head?_trimEnd {cs : List Char} (h : ∀ c ∈ cs.head?, Text.isWhite c = false) :
    ∀ c ∈ (trimEnd cs).head?, Text.isWhite c = false := by
  intro c hc
  obtain ⟨back, hback⟩ := trimEnd_isPrefix cs
  refine h c ?_
  rw [← hback, List.head?_append, Option.mem_def.1 hc]
  rfl

/-- A trimmed text does not start with white space. -/
theorem head?_trim (cs : List Char) : ∀ c ∈ (trim cs).head?, Text.isWhite c = false :=
  head?_trimEnd (head?_trimStart cs)

/-- A trimmed text does not end with white space. -/
theorem getLast?_trim (cs : List Char) : ∀ c ∈ (trim cs).getLast?, Text.isWhite c = false :=
  getLast?_trimEnd (trimStart cs)

/-- A text that starts with another character still starts with it when trimmed. -/
theorem head?_trim_cons {c : Char} (hc : Text.isWhite c = false) (cs : List Char) :
    (trim (c :: cs)).head? = some c := by
  have hstart : trimStart (c :: cs) = c :: cs := by simp [trimStart, hc]
  obtain ⟨back, hback⟩ : trimEnd (c :: cs) <+: c :: cs := trimEnd_isPrefix _
  rw [trim, hstart]
  match htr : trimEnd (c :: cs) with
  | [] =>
    have hmem : c ∈ trimEnd (c :: cs) := mem_trimEnd List.mem_cons_self hc
    rw [htr] at hmem
    cases hmem
  | d :: ds =>
    rw [htr] at hback
    rw [List.cons_append, List.cons.injEq] at hback
    rw [hback.1]
    rfl

/-- Trimming twice is trimming once. -/
@[simp]
theorem trim_trim (cs : List Char) : trim (trim cs) = trim cs :=
  trim_eq_self (head?_trim cs) (getLast?_trim cs)

end Chars

/-! ### The reader between phrases -/

/-- Characters that open and close nothing. -/
def isOrdinary (c : Char) : Bool :=
  !isQuoteMark c && c != '(' && c != ')' && c != '\\'

namespace Scan

variable {s : Scan} {c : Char}

/-- The reader is outside quotes, and a quote mark would open a quoted run. -/
structure IsCalm (s : Scan) : Prop where
  quote : s.quote = none
  escaped : s.escaped = false
  previous : s.previous ≠ some '\\'

/-- A scan starts calm. -/
theorem isCalm_start : ({} : Scan).IsCalm :=
  ⟨rfl, rfl, nofun⟩

/-- An ordinary character changes nothing but the previous one. -/
theorem IsCalm.step_ordinary (hs : s.IsCalm) (hc : isOrdinary c = true) :
    s.step c = { s with previous := some c } := by
  simp only [isOrdinary, Bool.and_eq_true, Bool.not_eq_true', bne_iff_ne, ne_eq] at hc
  simp [step, hs.quote, quotes, hc]

/-- An ordinary character is on top where no parenthesis is open. -/
theorem IsCalm.isTop_ordinary (hs : s.IsCalm) (hc : isOrdinary c = true) :
    s.isTop c = (s.depth == 0) := by
  have hmark : isQuoteMark c = false := by
    simp only [isOrdinary, Bool.and_eq_true, Bool.not_eq_true'] at hc
    exact hc.1.1.1
  simp [isTop, hs.step_ordinary hc, quotes, hs.quote, hmark]

/-- A scan stays calm and as deep after an ordinary character. -/
theorem IsCalm.after_ordinary (hs : s.IsCalm) (hc : isOrdinary c = true) :
    (s.step c).IsCalm ∧ (s.step c).depth = s.depth := by
  rw [hs.step_ordinary hc]
  refine ⟨⟨hs.quote, hs.escaped, ?_⟩, rfl⟩
  simp only [isOrdinary, Bool.and_eq_true, bne_iff_ne] at hc
  simpa using hc.2

/-- An open parenthesis goes one deeper. -/
theorem IsCalm.step_open (hs : s.IsCalm) :
    s.step '(' = { s with depth := s.depth + 1, previous := some '(' } := by
  simp [step, hs.quote, quotes, isQuoteMark]

/-- A closing parenthesis goes one up. -/
theorem IsCalm.step_close (hs : s.IsCalm) :
    s.step ')' = { s with depth := s.depth - 1, previous := some ')' } := by
  simp [step, hs.quote, quotes, isQuoteMark]

/-- A quote opens a text. -/
theorem IsCalm.step_quote (hs : s.IsCalm) :
    s.step '"' = { s with quote := some '"', previous := some '"' } := by
  simp [step, hs.quote, quotes, isQuoteMark, hs.previous]

/-- A scan stays calm one deeper after an open parenthesis. -/
theorem IsCalm.after_open (hs : s.IsCalm) :
    (s.step '(').IsCalm ∧ (s.step '(').depth = s.depth + 1 := by
  rw [hs.step_open]
  exact ⟨⟨hs.quote, hs.escaped, by simp⟩, rfl⟩

/-- A scan stays calm one up after a closing parenthesis. -/
theorem IsCalm.after_close (hs : s.IsCalm) :
    (s.step ')').IsCalm ∧ (s.step ')').depth = s.depth - 1 := by
  rw [hs.step_close]
  exact ⟨⟨hs.quote, hs.escaped, by simp⟩, rfl⟩

/-! ### Inside quotes -/

/-- The reader is inside double quotes, and the next character is not escaped. -/
structure IsQuoted (s : Scan) : Prop where
  quote : s.quote = some '"'
  escaped : s.escaped = false

/-- In quotes no character is on top. -/
theorem IsQuoted.isTop (hs : s.IsQuoted) (c : Char) : s.isTop c = false := by
  simp [Scan.isTop, quotes, hs.quote]

/-- A quote leads into a text at the same depth. -/
theorem IsCalm.after_quote (hs : s.IsCalm) :
    (s.step '"').IsQuoted ∧ (s.step '"').depth = s.depth := by
  rw [hs.step_quote]
  exact ⟨⟨rfl, hs.escaped⟩, rfl⟩

/-- The second quote leads out of the text again. -/
theorem IsQuoted.after_quote (hs : s.IsQuoted) :
    (s.step '"').IsCalm ∧ (s.step '"').depth = s.depth := by
  simp only [step, hs.quote, hs.escaped]
  exact ⟨⟨rfl, rfl, by simp⟩, rfl⟩

/-- An escaped character is read through. -/
theorem IsQuoted.after_escape (hs : s.IsQuoted) (c : Char) :
    ((s.step '\\').step c).IsQuoted ∧ ((s.step '\\').step c).depth = s.depth := by
  simp only [step, hs.quote, hs.escaped]
  exact ⟨⟨rfl, rfl⟩, rfl⟩

/-- So is a character that needs no escape. -/
theorem IsQuoted.after_char (hs : s.IsQuoted) (hc : c ≠ '\\') (hc' : c ≠ '"') :
    (s.step c).IsQuoted ∧ (s.step c).depth = s.depth := by
  simp only [step, hs.quote, hs.escaped, if_neg hc, if_neg hc']
  exact ⟨⟨rfl, rfl⟩, rfl⟩

/-! ### Passing over a text -/

/-- None of the characters looked for stands at the top level of the text. -/
def Passes (want : Char → Bool) : Scan → List Char → Prop
  | _, [] => True
  | s, c :: cs => (want c = true → s.isTop c = false) ∧ Passes want (s.step c) cs

/-- A scan passes two texts if it passes one after the other. -/
theorem passes_append {want : Char → Bool} {as bs : List Char} :
    Passes want s (as ++ bs) ↔ Passes want s as ∧ Passes want (s.run as) bs := by
  induction as generalizing s with
  | nil => simp [Passes, run]
  | cons a as ih => simp only [List.cons_append, Passes, ih, run, List.foldl_cons, and_assoc]

/-- A text without separators at its top level is no place to cut. -/
theorem Passes.pieces {want : Char → Bool} {p : List Char} (h : Passes want s p)
    (rest : List Char) :
    pieces want s (p ++ rest) = (pieces want (s.run p) rest).modifyHead (p ++ ·) := by
  induction p generalizing s with
  | nil => cases hp : Scan.pieces want s rest <;> simp [run, hp]
  | cons c p ih =>
    have hcut : (want c && s.isTop c) = false := by
      cases hw : want c with
      | false => rfl
      | true => simpa using h.1 hw
    simp only [List.cons_append, Scan.pieces, hcut, ih h.2, run, List.foldl_cons]
    cases Scan.pieces want (List.foldl step (s.step c) p) rest <;> simp

/-- The closing parenthesis is looked for behind such a text. -/
theorem Passes.closing? {p : List Char} (h : Passes (· == ')') s p) (rest : List Char) :
    closing? s (p ++ rest) = (closing? (s.run p) rest).map fun halves ↦
      (p ++ halves.1, halves.2) := by
  induction p generalizing s with
  | nil => cases hp : Scan.closing? s rest <;> simp [run, hp]
  | cons c p ih =>
    have hcut : (c == ')' && s.isTop c) = false := by
      cases hw : c == ')' with
      | false => rfl
      | true => simpa using h.1 hw
    simp only [List.cons_append, Scan.closing?, hcut, ih h.2, run, List.foldl_cons]
    cases Scan.closing? (List.foldl step (s.step c) p) rest <;> simp

/-- So is an operator, when each one starts with a character looked for. -/
theorem Passes.find? {want : Char → Bool} {operators : List (List Char)}
    (hops : ∀ operator ∈ operators, ∃ c cs, operator = c :: cs ∧ want c = true) {p : List Char}
    (h : Passes want s p) (rest : List Char) :
    find? operators s (p ++ rest) =
      (find? operators (s.run p) rest).map fun found ↦ (p ++ found.1, found.2) := by
  induction p generalizing s with
  | nil => cases hp : Scan.find? operators s rest <;> simp [run, hp]
  | cons c p ih =>
    have hlater := ih h.2
    -- an operator starts with a wanted character, and none of those is on top in the front part
    have hcut : s.isTop c = true → operators.find? (·.isPrefixOf (c :: (p ++ rest))) = none := by
      intro htop
      rw [List.find?_eq_none]
      intro operator hop
      obtain ⟨d, ds, rfl, hd⟩ := hops operator hop
      have hne : d ≠ c := by
        rintro rfl
        rw [h.1 hd] at htop
        cases htop
      simp [hne]
    simp only [List.cons_append, Scan.find?, hlater, run, List.foldl_cons]
    split
    · next ht =>
      rw [hcut (by simp only [Bool.and_eq_true] at ht; exact ht.1.1)]
      cases Scan.find? operators (List.foldl step (s.step c) p) rest <;> simp
    · cases Scan.find? operators (List.foldl step (s.step c) p) rest <;> simp

end Scan

/-! ### Phrases -/

/-- Texts in which all quotes and parentheses are closed, and whose ordinary characters outside
of them are of the kind given. -/
inductive Phrase : (Char → Bool) → List Char → Prop
  | nil {top : Char → Bool} : Phrase top []
  | char {top : Char → Bool} {c : Char} {cs : List Char} (ordinary : isOrdinary c = true)
    (fits : top c = true) (rest : Phrase top cs) : Phrase top (c :: cs)
  | quoted {top : Char → Bool} {text cs : List Char} (rest : Phrase top cs) :
    Phrase top ('"' :: Chars.escape text ++ '"' :: cs)
  | group {top : Char → Bool} {inner cs : List Char} (inside : Phrase (fun _ ↦ true) inner)
    (rest : Phrase top cs) : Phrase top ('(' :: inner ++ ')' :: cs)

/-- An escaped character comes before the other ones. -/
theorem Chars.escape_cons (c : Char) (cs : List Char) :
    escape (c :: cs) = (if (c == '\\' || c == '"') = true then ['\\', c] else [c]) ++ escape cs :=
  rfl

/-- A quoted run is read to its end, with nothing at the top level on the way. -/
theorem Scan.IsQuoted.run_escape {s : Scan} (hs : s.IsQuoted) (text : List Char) :
    (s.run (Chars.escape text)).IsQuoted ∧ (s.run (Chars.escape text)).depth = s.depth ∧
      ∀ want, Passes want s (Chars.escape text) := by
  induction text generalizing s with
  | nil => exact ⟨hs, rfl, fun _ ↦ trivial⟩
  | cons c text ih =>
    by_cases hc : (c == '\\' || c == '"') = true
    · obtain ⟨hs', hd⟩ := hs.after_escape c
      obtain ⟨hq, hdepth, hpass⟩ := ih hs'
      have hsplit : Chars.escape (c :: text) = '\\' :: c :: Chars.escape text := by
        rw [Chars.escape_cons, if_pos hc]
        rfl
      have hback : (s.step '\\').isTop c = false := by
        have : (s.step '\\').quote = some '"' := by simp [step, hs.quote, hs.escaped]
        simp [Scan.isTop, quotes, this]
      rw [hsplit]
      exact ⟨hq, hdepth.trans hd, fun want ↦ ⟨fun _ ↦ hs.isTop _, fun _ ↦ hback, hpass want⟩⟩
    · have hne : c ≠ '\\' ∧ c ≠ '"' := by simpa using hc
      obtain ⟨hs', hd⟩ := hs.after_char hne.1 hne.2
      obtain ⟨hq, hdepth, hpass⟩ := ih hs'
      have hsplit : Chars.escape (c :: text) = c :: Chars.escape text := by
        rw [Chars.escape_cons, if_neg hc]
        rfl
      rw [hsplit]
      exact ⟨hq, hdepth.trans hd, fun want ↦ ⟨fun _ ↦ hs.isTop _, hpass want⟩⟩

namespace Phrase

open Scan

variable {top top' : Char → Bool} {p q : List Char} {s : Scan}

/-- A phrase after a phrase is a phrase. -/
theorem append (hp : Phrase top p) (hq : Phrase top q) : Phrase top (p ++ q) := by
  induction hp with
  | nil => exact hq
  | char ordinary fits _ ih => exact .char ordinary fits (ih hq)
  | quoted _ ih => simpa using Phrase.quoted (ih hq)
  | group inside _ _ ih => simpa using Phrase.group inside (ih hq)

/-- A phrase may be held to less. -/
theorem mono (h : ∀ c, top c = true → top' c = true) (hp : Phrase top p) : Phrase top' p := by
  induction hp with
  | nil => exact .nil
  | char ordinary fits _ ih => exact .char ordinary (h _ fits) (ih h)
  | quoted _ ih => exact .quoted (ih h)
  | group inside _ _ ih => exact .group inside (ih h)

/-- The reader comes out of a phrase as it went in. -/
theorem run (hp : Phrase top p) (hs : s.IsCalm) :
    (s.run p).IsCalm ∧ (s.run p).depth = s.depth := by
  induction hp generalizing s with
  | nil => exact ⟨hs, rfl⟩
  | char ordinary _ _ ih =>
    obtain ⟨hc, hd⟩ := hs.after_ordinary ordinary
    obtain ⟨hc', hd'⟩ := ih hc
    exact ⟨hc', hd'.trans hd⟩
  | @quoted _ text _ _ ih =>
    obtain ⟨hq, hd⟩ := hs.after_quote
    obtain ⟨hq', hd', -⟩ := hq.run_escape text
    obtain ⟨hc, hd''⟩ := hq'.after_quote
    obtain ⟨hc', hdepth⟩ := ih hc
    simp only [Scan.run, List.cons_append, List.foldl_cons, List.foldl_append] at *
    exact ⟨hc', by rw [hdepth, hd'', hd', hd]⟩
  | group _ _ ih ih' =>
    obtain ⟨hc, hd⟩ := hs.after_open
    obtain ⟨hc', hd'⟩ := ih hc
    obtain ⟨hc'', hd''⟩ := hc'.after_close
    obtain ⟨hcalm, hdepth⟩ := ih' hc''
    simp only [Scan.run, List.cons_append, List.foldl_cons, List.foldl_append] at *
    exact ⟨hcalm, by rw [hdepth, hd'', hd', hd, Nat.add_sub_cancel]⟩

/-- Inside parentheses nothing of a phrase stands at the top level. -/
theorem passes_deep (hp : Phrase top p) (hs : s.IsCalm) (hdeep : 0 < s.depth)
    (want : Char → Bool) : Passes want s p := by
  induction hp generalizing s with
  | nil => trivial
  | char ordinary _ _ ih =>
    obtain ⟨hc, hd⟩ := hs.after_ordinary ordinary
    refine ⟨fun _ ↦ ?_, ih hc (by omega)⟩
    rw [hs.isTop_ordinary ordinary]
    exact beq_eq_false_iff_ne.2 (by omega)
  | @quoted _ text _ _ ih =>
    obtain ⟨hq, hd⟩ := hs.after_quote
    obtain ⟨hq', hd', hpass⟩ := hq.run_escape text
    obtain ⟨hc, hd''⟩ := hq'.after_quote
    refine ⟨fun _ ↦ ?_, passes_append.2 ⟨hpass want, fun _ ↦ hq'.isTop _, ih hc (by omega)⟩⟩
    simp [isTop, quotes, isQuoteMark, hs.previous]
  | @group _ inner _ inside _ ih ih' =>
    obtain ⟨hc, hd⟩ := hs.after_open
    obtain ⟨hc', hd'⟩ := inside.run hc
    obtain ⟨hc'', hd''⟩ := hc'.after_close
    refine ⟨fun _ ↦ ?_, passes_append.2 ⟨ih hc (by omega), fun _ ↦ ?_, ih' hc'' (by omega)⟩⟩
    · simp [isTop, hd]
    · have hne : ((Scan.run (s.step '(') inner).step ')').depth ≠ 0 := by omega
      simp [isTop, hne]

/-- At the top level of a phrase there are only its own ordinary characters, apart from the
parentheses of its groups. -/
theorem passes {want : Char → Bool} (hp : Phrase top p) (hs : s.IsCalm)
    (hwant : ∀ c, top c = true → want c = false) (hopen : want '(' = false)
    (hclose : want ')' = false) : Passes want s p := by
  induction hp generalizing s with
  | nil => trivial
  | char ordinary fits _ ih =>
    refine ⟨fun hw ↦ ?_, ih (hs.after_ordinary ordinary).1 hwant⟩
    rw [hwant _ fits] at hw
    cases hw
  | @quoted _ text _ _ ih =>
    obtain ⟨hq', -, hpass⟩ := hs.after_quote.1.run_escape text
    refine ⟨fun _ ↦ ?_, passes_append.2 ⟨hpass want, fun _ ↦ hq'.isTop _,
      ih hq'.after_quote.1 hwant⟩⟩
    simp [isTop, quotes, isQuoteMark, hs.previous]
  | group inside _ _ ih' =>
    obtain ⟨hc, hd⟩ := hs.after_open
    refine ⟨fun hw ↦ ?_, passes_append.2 ⟨inside.passes_deep hc (by omega) want, fun hw ↦ ?_,
      ih' (inside.run hc).1.after_close.1 hwant⟩⟩
    · rw [hopen] at hw
      cases hw
    · rw [hclose] at hw
      cases hw

end Phrase

/-! ### Words -/

/-- The characters that a word may hold outside quotes and parentheses. -/
def isWordChar (c : Char) : Bool :=
  Chars.isPlain c || c == '@'

/-- Letters and digits, by their code points. -/
theorem isAlphanum_iff {c : Char} : c.isAlphanum = true ↔
    (65 ≤ c.toNat ∧ c.toNat ≤ 90) ∨ (97 ≤ c.toNat ∧ c.toNat ≤ 122) ∨
      (48 ≤ c.toNat ∧ c.toNat ≤ 57) := by
  have halphanum : c.isAlphanum = (decide (65 ≤ c.val ∧ c.val ≤ 90) ||
      (decide (97 ≤ c.val) && decide (c.val ≤ 122)) ||
        (decide (48 ≤ c.val) && decide (c.val ≤ 57))) := rfl
  rw [halphanum]
  simp only [Bool.or_eq_true, Bool.and_eq_true, decide_eq_true_eq, UInt32.le_iff_toNat_le, or_assoc]
  exact Iff.rfl

/-- The word characters are visible and in the range of ASCII. -/
theorem isWordChar_range {c : Char} (h : isWordChar c = true) : 33 ≤ c.toNat ∧ c.toNat ≤ 126 := by
  simp only [isWordChar, Chars.isPlain, Bool.or_eq_true, beq_iff_eq] at h
  rcases h with ((((((h | rfl) | rfl) | rfl) | rfl) | rfl) | rfl) | rfl
  · have := isAlphanum_iff.1 h
    omega
  all_goals decide

/-- A word character is no white space. -/
theorem not_isWhite_of_isWordChar {c : Char} (h : isWordChar c = true) :
    Text.isWhite c = false := by
  have := isWordChar_range h
  simp only [Text.isWhite, Bool.or_eq_false_iff, Bool.and_eq_false_iff, decide_eq_false_iff_not,
    beq_eq_false_iff_ne]
  omega

/-- A word holds no character that means something to a splitter. -/
theorem ne_of_isWordChar {c d : Char} (h : isWordChar c = true) (hd : isWordChar d = false) :
    c ≠ d := by
  rintro rfl
  rw [h] at hd
  cases hd

/-- A word character means nothing to a scan. -/
theorem isOrdinary_of_isWordChar {c : Char} (h : isWordChar c = true) : isOrdinary c = true := by
  have hquote := ne_of_isWordChar h (d := '"') (by decide)
  have hapostrophe := ne_of_isWordChar h (d := '\x27') (by decide)
  have hopen := ne_of_isWordChar h (d := '(') (by decide)
  have hclose := ne_of_isWordChar h (d := ')') (by decide)
  have hback := ne_of_isWordChar h (d := '\\') (by decide)
  simp [isOrdinary, isQuoteMark, hquote, hapostrophe, hopen, hclose, hback]

namespace Phrase

variable {top : Char → Bool} {p : List Char}

/-- Ordinary characters of the class are a phrase. -/
theorem of_ordinary {cs : List Char} (h : (cs.all fun c ↦ isOrdinary c && top c) = true) :
    Phrase top cs := by
  induction cs with
  | nil => exact .nil
  | cons c cs ih =>
    rw [List.all_cons, Bool.and_eq_true, Bool.and_eq_true] at h
    exact .char h.1.1 h.1.2 (ih h.2)

/-- Word characters are a phrase. -/
theorem of_word {cs : List Char} (h : ∀ c ∈ cs, isWordChar c = true) : Phrase isWordChar cs :=
  .of_ordinary <| List.all_eq_true.2 fun c hc ↦
    Bool.and_eq_true_iff.2 ⟨isOrdinary_of_isWordChar (h c hc), h c hc⟩

/-- The first character of a phrase is one of its ordinary ones or opens a quote or a group. -/
theorem head?_cases (hp : Phrase top p) {c : Char} (hc : c ∈ p.head?) :
    top c = true ∨ c = '"' ∨ c = '(' := by
  cases hp with
  | nil => cases hc
  | char _ fits _ => exact .inl (Option.some.inj hc ▸ fits)
  | quoted => exact .inr (.inl (Option.some.inj hc).symm)
  | group => exact .inr (.inr (Option.some.inj hc).symm)

/-- A phrase ends with a character of its class, a quote or a parenthesis. -/
theorem getLast?_cases (hp : Phrase top p) {c : Char} (hc : c ∈ p.getLast?) :
    top c = true ∨ c = '"' ∨ c = ')' := by
  induction hp with
  | nil => cases hc
  | @char _ d cs _ fits _ ih =>
    rw [List.getLast?_cons] at hc
    cases hcs : cs.getLast? with
    | none => exact .inl (by simp_all)
    | some => exact ih (by simp_all)
  | @quoted _ text cs _ ih =>
    rw [List.getLast?_append, List.getLast?_cons] at hc
    cases hcs : cs.getLast? with
    | none =>
      rw [hcs] at hc
      exact .inr (.inl (Option.some.inj hc).symm)
    | some => exact ih (by simp_all)
  | @group _ inner cs _ _ _ ih =>
    rw [List.getLast?_append, List.getLast?_cons] at hc
    cases hcs : cs.getLast? with
    | none =>
      rw [hcs] at hc
      exact .inr (.inr (Option.some.inj hc).symm)
    | some => exact ih (by simp_all)

/-- A phrase without white space outside quotes and parentheses is trimmed already. -/
theorem trim (hp : Phrase top p) (htop : ∀ c, top c = true → Text.isWhite c = false) :
    Chars.trim p = p := by
  refine Chars.trim_eq_self (fun c hc ↦ ?_) (fun c hc ↦ ?_)
  · rcases hp.head?_cases hc with h | rfl | rfl
    exacts [htop c h, rfl, rfl]
  · rcases hp.getLast?_cases hc with h | rfl | rfl
    exacts [htop c h, rfl, rfl]

end Phrase

/-- A text without white space outside quotes and parentheses, and without signs. -/
structure IsWord (p : List Char) : Prop where
  phrase : Phrase isWordChar p
  ne_nil : p ≠ []

/-- A text without white space outside quotes and parentheses. -/
structure IsPiece (p : List Char) : Prop where
  phrase : Phrase (fun c ↦ !Text.isWhite c) p
  ne_nil : p ≠ []

namespace IsWord

variable {p : List Char}

/-- A word is its own trimmed form. -/
theorem trim (h : IsWord p) : Chars.trim p = p :=
  h.phrase.trim fun _ ↦ not_isWhite_of_isWordChar

/-- A word does not start with white space. -/
theorem head?_not_white (h : IsWord p) : ∀ c ∈ p.head?, Text.isWhite c = false := by
  have := Chars.head?_trim p
  rwa [h.trim] at this

/-- A word does not end with white space. -/
theorem getLast?_not_white (h : IsWord p) : ∀ c ∈ p.getLast?, Text.isWhite c = false := by
  have := Chars.getLast?_trim p
  rwa [h.trim] at this

/-- A word is a piece of its own. -/
theorem isPiece (h : IsWord p) : IsPiece p :=
  ⟨h.phrase.mono fun c hc ↦ by simp [not_isWhite_of_isWordChar hc], h.ne_nil⟩

end IsWord

/-- A token as it is written is a word. -/
theorem isWord_formatToken (cs : List Char) : IsWord (Chars.formatToken cs) := by
  unfold Chars.formatToken
  split
  · next h =>
    simp only [Bool.and_eq_true, Bool.not_eq_true', List.isEmpty_eq_false_iff,
      List.all_eq_true] at h
    exact ⟨.of_word fun c hc ↦ by simp [isWordChar, h.2 c hc], h.1⟩
  · exact ⟨.quoted .nil, List.cons_ne_nil _ _⟩

/-! ### Splitting what was joined -/

/-- Phrases joined by a separator are split into the same phrases. -/
theorem Scan.pieces_intercalate {want top : Char → Bool} {c : Char} (hc : want c = true)
    (hord : isOrdinary c = true) (hwant : ∀ d, top d = true → want d = false)
    (hopen : want '(' = false) (hclose : want ')' = false) {p : List Char} {ps : List (List Char)}
    (hps : ∀ q ∈ p :: ps, Phrase top q) {s : Scan} (hs : s.IsCalm) (hd : s.depth = 0) :
    pieces want s (List.intercalate [c] (p :: ps)) = p :: ps := by
  induction ps generalizing p s with
  | nil =>
    have hpass := (hps p List.mem_cons_self).passes hs hwant hopen hclose
    have h := hpass.pieces []
    simpa [pieces] using h
  | cons q ps ih =>
    have hp := hps p List.mem_cons_self
    obtain ⟨hs', hd'⟩ := hp.run hs
    obtain ⟨hs'', hd''⟩ := hs'.after_ordinary hord
    have htop : (s.run p).isTop c = true := by
      rw [hs'.isTop_ordinary hord, hd', hd]
      rfl
    rw [List.intercalate_cons_cons, List.append_assoc,
      (hp.passes hs hwant hopen hclose).pieces, List.singleton_append, pieces, htop, hc,
      ih (fun r hr ↦ hps r (List.mem_cons_of_mem _ hr)) hs'' (by omega)]
    simp

/-- Pieces joined by spaces are the tokens of their line. -/
theorem Chars.splitLine_intercalate {ws : List (List Char)} (h : ∀ w ∈ ws, IsPiece w) :
    splitLine (List.intercalate [' '] ws) = ws := by
  cases ws with
  | nil => rfl
  | cons w ws =>
    rw [splitLine, Scan.pieces_intercalate (by decide) (by decide)
      (fun c hc ↦ by simpa using hc) (by decide) (by decide) (fun q hq ↦ (h q hq).phrase)
      Scan.isCalm_start rfl, List.filter_eq_self]
    intro q hq
    simpa using (h q hq).ne_nil

/-- Outside quotes and parentheses it does not matter what was read before. -/
theorem Scan.IsCalm.step_eq {s : Scan} (hs : s.IsCalm) (hd : s.depth = 0) (c : Char) :
    s.quotes c = quotes {} c ∧ s.step c = step {} c := by
  have hprevious : (s.previous != some '\\') = true := by simpa using hs.previous
  have hquotes : s.quotes c = quotes {} c := by
    rw [quotes, hs.quote, hprevious]
    rfl
  exact ⟨hquotes, by simp [step, hs.quote, hs.escaped, hd, hquotes]⟩

/-- The pieces of a text do not depend on what came before it, where nothing is open. -/
theorem Scan.IsCalm.pieces_eq {s : Scan} (hs : s.IsCalm) (hd : s.depth = 0) (want : Char → Bool) :
    ∀ cs, pieces want s cs = pieces want {} cs
  | [] => rfl
  | c :: cs => by
    rw [pieces, pieces, isTop, isTop, (hs.step_eq hd c).1, (hs.step_eq hd c).2]

/-- White space means nothing to a scan. -/
theorem isOrdinary_of_isWhite {c : Char} (h : Text.isWhite c = true) : isOrdinary c = true := by
  simp only [isOrdinary, isQuoteMark, Bool.and_eq_true, Bool.not_eq_true', Bool.or_eq_false_iff,
    beq_eq_false_iff_ne, bne_iff_ne]
  refine ⟨⟨⟨⟨?_, ?_⟩, ?_⟩, ?_⟩, ?_⟩ <;>
    · rintro rfl
      revert h
      decide

namespace Scan

variable {s : Scan} {c : Char}

/-- The reader is outside quotes and parentheses, whatever it has just read. -/
structure IsOutside (s : Scan) : Prop where
  quote : s.quote = none
  escaped : s.escaped = false
  depth : s.depth = 0

/-- A calm scan at depth zero is outside of everything. -/
theorem IsCalm.isOutside (hs : s.IsCalm) (hd : s.depth = 0) : s.IsOutside :=
  ⟨hs.quote, hs.escaped, hd⟩

/-- Outside quotes white space changes nothing. -/
theorem step_white (hquote : s.quote = none) (hc : Text.isWhite c = true) :
    s.step c = { s with previous := some c } := by
  have hord := isOrdinary_of_isWhite hc
  simp only [isOrdinary, Bool.and_eq_true, Bool.not_eq_true', bne_iff_ne, ne_eq] at hord
  simp only [step, hquote, quotes, Option.isSome_none, hord, Bool.false_and, Bool.or_self,
    Bool.false_eq_true, if_false]

/-- Behind white space a text starts anew. -/
theorem IsOutside.after_white (hs : s.IsOutside) (hc : Text.isWhite c = true) :
    (s.step c).IsCalm ∧ (s.step c).depth = 0 := by
  have hback : c ≠ '\\' := by
    rintro rfl
    revert hc
    decide
  rw [step_white hs.quote hc]
  exact ⟨⟨hs.quote, hs.escaped, by simpa using hback⟩, hs.depth⟩

end Scan

namespace Chars

/-- A line goes on after a token that leaves the reader outside. -/
theorem splitLine_append_of_isOutside {p : List Char} (hpass : Scan.Passes Text.isWhite {} p)
    (hne : p ≠ []) (hout : (Scan.run {} p).IsOutside) (rest : List Char) :
    splitLine (p ++ ' ' :: rest) = p :: splitLine rest := by
  obtain ⟨hs, hd⟩ := hout.after_white (c := ' ') (by decide)
  have hcut : (Text.isWhite ' ' && (Scan.run {} p).isTop ' ') = true := by
    simp [Scan.isTop, hd, Scan.quotes, hout.quote, isQuoteMark, Text.isWhite]
  rw [splitLine, hpass.pieces, Scan.pieces, if_pos hcut, List.modifyHead_cons, List.append_nil,
    List.filter_cons_of_pos (by simpa using hne), hs.pieces_eq hd, splitLine]

/-- A line goes on after its first piece. -/
theorem splitLine_append {p : List Char} (h : IsPiece p) (rest : List Char) :
    splitLine (p ++ ' ' :: rest) = p :: splitLine rest := by
  have hpass : Scan.Passes Text.isWhite {} p :=
    h.phrase.passes Scan.isCalm_start (fun c hc ↦ by simpa using hc) (by decide) (by decide)
  obtain ⟨hs, hd⟩ := h.phrase.run Scan.isCalm_start
  exact splitLine_append_of_isOutside hpass h.ne_nil (hs.isOutside hd) rest

/-- White space in front of a line says nothing. -/
theorem splitLine_white_append {white : List Char} (h : ∀ c ∈ white, Text.isWhite c = true)
    (cs : List Char) : splitLine (white ++ cs) = splitLine cs := by
  induction white with
  | nil => rfl
  | cons c white ih =>
    have hc := h c List.mem_cons_self
    have hordinary := isOrdinary_of_isWhite hc
    obtain ⟨hs, hd⟩ := Scan.isCalm_start.after_ordinary hordinary
    have hseparates : (Text.isWhite c && Scan.isTop {} c) = true := by
      rw [hc, Scan.isCalm_start.isTop_ordinary hordinary]
      rfl
    rw [← ih fun d hd ↦ h d (List.mem_cons_of_mem _ hd), List.cons_append, splitLine, Scan.pieces,
      if_pos hseparates, hs.pieces_eq hd, List.filter_cons_of_neg (by simp), splitLine]

/-- White space in front of another character is kept at the end. -/
theorem trimEnd_append_of_notWhite {front back : List Char} {c : Char} (hc : c ∈ back)
    (hwhite : Text.isWhite c = false) : trimEnd (front ++ back) = front ++ trimEnd back := by
  have hne : (back.reverse.dropWhile Text.isWhite).isEmpty = false := by
    have hmem : c ∈ back.reverse.dropWhile Text.isWhite :=
      mem_trimStart (List.mem_reverse.2 hc) hwhite
    simpa using List.ne_nil_of_mem hmem
  rw [trimEnd, trimEnd, List.reverse_append, List.dropWhile_append, hne]
  simp

/-- The tokens of a trimmed line: its first word, and those of the trimmed rest. -/
theorem splitLine_trim_append {p : List Char} (h : IsPiece p)
    (hp : ∀ c ∈ p, Text.isWhite c = false) (rest : List Char) :
    splitLine (trim (p ++ ' ' :: rest)) = p :: splitLine (trim rest) := by
  have hstart : trimStart (p ++ ' ' :: rest) = p ++ ' ' :: rest := by
    refine trimStart_eq_self fun c hc ↦ hp c ?_
    obtain ⟨first, more, rfl⟩ := List.exists_cons_of_ne_nil h.ne_nil
    exact Option.some.inj hc ▸ List.mem_cons_self
  rw [trim, hstart, trim]
  -- the rest is cut at its last character that is no white space, if there is one
  by_cases hrest : ∃ c ∈ rest, Text.isWhite c = false
  · obtain ⟨c, hc, hwhite⟩ := hrest
    have hend : trimEnd rest = rest.takeWhile Text.isWhite ++ trimEnd (trimStart rest) :=
      calc trimEnd rest = trimEnd (rest.takeWhile Text.isWhite ++ trimStart rest) := by
            rw [trimStart, List.takeWhile_append_dropWhile]
        _ = _ := trimEnd_append_of_notWhite (mem_trimStart hc hwhite) hwhite
    rw [show p ++ ' ' :: rest = (p ++ [' ']) ++ rest by simp,
      trimEnd_append_of_notWhite hc hwhite, hend, List.append_assoc, List.singleton_append,
      splitLine_append h, splitLine_white_append fun d hd ↦ List.mem_takeWhile_imp hd]
  · have hwhite : ∀ c ∈ rest, Text.isWhite c = true := by simpa using hrest
    have hsingle : splitLine (List.intercalate [' '] [p]) = [p] :=
      splitLine_intercalate fun w hw ↦ List.mem_singleton.1 hw ▸ h
    have hend : trimEnd p = p := trimEnd_eq_self fun c hc ↦ hp c (List.mem_of_getLast? hc)
    have hnil : trimStart rest = [] := List.dropWhile_eq_nil_iff.2 hwhite
    rw [List.intercalate_singleton] at hsingle
    rw [trimEnd_append (by simpa using ⟨by decide, hwhite⟩), hend, hsingle, hnil]
    rfl

end Chars

/-! ### Quotes -/

namespace Chars

/-- A character other than a backslash is read as itself. -/
theorem unescape_cons (c : Char) (hc : c ≠ '\\') (cs : List Char) :
    unescape (c :: cs) = c :: unescape cs := by
  cases cs with
  | nil => rfl
  | cons d cs => simp [unescape, hc]

/-- Escapes are resolved one by one. -/
theorem unescape_escape_append (cs rest : List Char) :
    unescape (escape cs ++ rest) = cs ++ unescape rest := by
  induction cs with
  | nil => rfl
  | cons c cs ih =>
    rw [escape_cons]
    split
    · next hc =>
      have hmark : (isQuoteMark c || c == '\\') = true := by
        simp only [Bool.or_eq_true, beq_iff_eq] at hc
        rcases hc with rfl | rfl <;> rfl
      simp only [List.cons_append, List.nil_append, unescape, hmark, ih]
      rfl
    · next hc =>
      have hne : c ≠ '\\' := by
        rintro rfl
        exact hc rfl
      rw [List.cons_append, List.nil_append, List.cons_append, unescape_cons c hne, ih,
        List.cons_append]

/-- An escaped text is read as itself. -/
theorem unescape_escape (cs : List Char) : unescape (escape cs) = cs := by
  simpa [unescape] using unescape_escape_append cs []

/-- A text that starts with no quote mark has no quotes to drop. -/
theorem unquote_eq_trim {cs : List Char} (h : ∀ c ∈ (trim cs).head?, isQuoteMark c = false) :
    unquote cs = trim cs := by
  unfold unquote
  match hcs : trim cs with
  | [] => rfl
  | [_] => rfl
  | c :: d :: rest =>
    have hc := h c (by rw [hcs]; rfl)
    simp [isWrapped, hc]

/-- A token reads back as the text it was made of. -/
theorem unquote_formatToken (cs : List Char) : unquote (formatToken cs) = cs := by
  have htrim := (isWord_formatToken cs).trim
  by_cases h : (!cs.isEmpty && cs.all isPlain) = true
  · have hform : formatToken cs = cs := by rw [formatToken, if_pos h]
    rw [hform] at htrim ⊢
    rw [unquote_eq_trim, htrim]
    intro c hc
    rw [htrim] at hc
    simp only [Bool.and_eq_true, List.all_eq_true] at h
    have hword : isWordChar c = true := by simp [isWordChar, h.2 c (List.mem_of_mem_head? hc)]
    have hord := isOrdinary_of_isWordChar hword
    simp only [isOrdinary, Bool.and_eq_true, Bool.not_eq_true'] at hord
    exact hord.1.1.1
  · have hform : formatToken cs = '"' :: (escape cs ++ ['"']) := by
      rw [formatToken, if_neg h, List.cons_append]
    rw [hform] at htrim ⊢
    have hwrap : isWrapped ('"' :: (escape cs ++ ['"'])) = true := by
      unfold isWrapped
      cases hcs : escape cs with
      | nil => rfl
      | cons c rest => simp [isQuoteMark, List.getLast?_cons]
    simp only [unquote, htrim, hwrap, if_true, List.drop_succ_cons, List.drop_zero,
      List.dropLast_concat]
    exact unescape_escape cs

/-- White space around an argument does not matter. -/
theorem unquote_space (cs : List Char) : unquote (' ' :: cs) = unquote cs := by
  have htrim : trim (' ' :: cs) = trim cs := by
    rw [← List.singleton_append]
    exact trim_append (by simp [Text.isWhite])
  rw [unquote, unquote, htrim]

end Chars

end BlockScript
