import BlockScript.Call
import BlockScript.Number.Text
import BlockScript.Proofs.Phrase

/-!
# Calls, tokens and comparisons as they are written

The texts that a listing puts into the slots of a block are words: tokens, numbers and calls whose
arguments are such texts again. This file says how the reader of a slot takes them. A written call
is shaped like one and reads back as its name and its arguments (`Call.IsWritable.parse`), a
written comparison of two operands splits at its own sign (`Comparison.split?_write`) and is not
taken for a call (`Comparison.isShaped_write`), and numbers are plain (`Number.format_plain`).
-/

namespace BlockScript

/-! ### Calls -/

namespace Chars

/-- An identifier consists of word characters. -/
theorem isWordChar_of_identifier {cs : List Char} (h : isIdentifier cs = true) :
    ∀ c ∈ cs, isWordChar c = true := by
  match cs with
  | c :: rest =>
    simp only [isIdentifier, Bool.and_eq_true, Bool.or_eq_true, beq_iff_eq, List.all_eq_true] at h
    intro d hd
    rcases List.mem_cons.1 hd with rfl | hd
    · rcases h.1 with h | rfl
      · simp [isWordChar, isPlain, Char.isAlphanum, h]
      · decide
    · rcases h.2 d hd with (h | rfl) | rfl
      · simp [isWordChar, isPlain, h]
      · decide
      · decide

/-- An identifier holds neither the mark of an expression nor a parenthesis, and no quotes. -/
theorem head?_identifier {cs : List Char} (h : isIdentifier cs = true) :
    ∃ c rest, cs = c :: rest ∧ c ≠ '@' ∧ isQuoteMark c = false := by
  match cs with
  | c :: rest =>
    have hc : (c.isAlpha || c == '_') = true := by
      simp only [isIdentifier, Bool.and_eq_true] at h
      exact h.1
    refine ⟨c, rest, rfl, ?_, ?_⟩
    · rintro rfl
      revert hc
      decide
    · have hord := isOrdinary_of_isWordChar (isWordChar_of_identifier h c List.mem_cons_self)
      simp only [isOrdinary, Bool.and_eq_true, Bool.not_eq_true'] at hord
      exact hord.1.1.1

/-- No identifier starts with a quote. -/
theorem isIdentifier_trim_quote (cs : List Char) : isIdentifier (trim ('"' :: cs)) = false := by
  have hhead : (trim ('"' :: cs)).head? = some '"' := head?_trim_cons (by decide) cs
  match htr : trim ('"' :: cs) with
  | [] => rfl
  | d :: ds =>
    rw [htr] at hhead
    obtain rfl := Option.some.inj hhead
    rfl

/-- An identifier is a word. -/
theorem isWord_identifier {cs : List Char} (h : isIdentifier cs = true) : IsWord cs := by
  obtain ⟨c, rest, rfl, -⟩ := head?_identifier h
  exact ⟨.of_word (isWordChar_of_identifier h), List.cons_ne_nil _ _⟩

/-- The text of a call with these arguments. -/
def callText (name : List Char) (args : List (List Char)) : List Char :=
  name ++ '(' :: List.intercalate [',', ' '] args ++ [')']

/-- Arguments that can be told apart: not empty, and without commas outside quotes and
parentheses. -/
def AreArguments (args : List (List Char)) : Prop :=
  ∀ arg ∈ args, Phrase (· != ',') arg ∧ arg ≠ []

/-- Arguments with commas between them are a phrase. -/
theorem AreArguments.phrase {args : List (List Char)} (h : AreArguments args) :
    Phrase (fun _ ↦ true) (List.intercalate [',', ' '] args) := by
  have hmono : ∀ arg ∈ args, Phrase (fun _ ↦ true) arg := fun arg harg ↦
    (h arg harg).1.mono fun _ _ ↦ rfl
  clear h
  induction args with
  | nil => exact .nil
  | cons arg args ih =>
    cases args with
    | nil => simpa using hmono arg List.mem_cons_self
    | cons next rest =>
      rw [List.intercalate_cons_cons]
      refine Phrase.append (Phrase.append (hmono arg List.mem_cons_self) ?_)
        (ih fun a ha ↦ hmono a (List.mem_cons_of_mem _ ha))
      exact .char (by decide) rfl (.char (by decide) rfl .nil)

/-- The space after a comma belongs to the next argument. -/
theorem intercalate_comma (arg : List Char) (args : List (List Char)) :
    List.intercalate [',', ' '] (arg :: args) =
      List.intercalate [','] (arg :: args.map (' ' :: ·)) := by
  induction args generalizing arg with
  | nil => simp
  | cons next rest ih =>
    rw [List.intercalate_cons_cons, ih, List.map_cons, List.intercalate_cons_cons]
    cases rest <;> simp [List.intercalate_cons_cons]

/-- The arguments of a call are read as they were written, less one pair of quotes. -/
theorem splitArguments_intercalate {args : List (List Char)} (h : AreArguments args) :
    (splitArguments (List.intercalate [',', ' '] args)).map unquote = args.map unquote := by
  cases args with
  | nil => rfl
  | cons arg args =>
    have hne : (List.intercalate [',', ' '] (arg :: args)).isEmpty = false := by
      have harg := (h arg List.mem_cons_self).2
      cases args <;> simp [List.intercalate_cons_cons, harg]
    have hphrase : ∀ q ∈ arg :: args.map (' ' :: ·), Phrase (· != ',') q := by
      intro q hq
      rcases List.mem_cons.1 hq with rfl | hq
      · exact (h q List.mem_cons_self).1
      · obtain ⟨a, ha, rfl⟩ := List.mem_map.1 hq
        exact .char (by decide) (by decide) (h a (List.mem_cons_of_mem _ ha)).1
    rw [splitArguments, hne, intercalate_comma]
    have hpieces : Scan.pieces (· == ',') {} (List.intercalate [','] (arg :: args.map (' ' :: ·))) =
        arg :: args.map (' ' :: ·) :=
      Scan.pieces_intercalate rfl (by decide) (fun d hd ↦ by simpa using hd) rfl rfl hphrase
        Scan.isCalm_start rfl
    simp [hpieces, unquote_space]

/-- The first parenthesis of a call closes where its arguments end. -/
theorem closing?_group {inner : List Char} {top : Char → Bool} (h : Phrase top inner)
    (rest : List Char) :
    Scan.closing? {} ('(' :: inner ++ ')' :: rest) = some ('(' :: inner, rest) := by
  obtain ⟨hs, hd⟩ := Scan.isCalm_start.after_open
  obtain ⟨hs', hd'⟩ := h.run hs
  have htop : ((Scan.step {} '(').run inner).isTop ')' = true := by
    have hzero : (((Scan.step {} '(').run inner).step ')').depth = 0 := by
      rw [hs'.after_close.2, hd', hd]
      rfl
    simp [Scan.isTop, hzero, Scan.quotes, hs'.quote, isQuoteMark]
  have hpass := (h.passes_deep hs (by rw [hd]; decide) (· == ')')).closing? (')' :: rest)
  simp [Scan.closing?, hpass, htop]

/-- A call is cut at its first parenthesis. -/
theorem takeWhile_callText {name : List Char} (hname : isIdentifier name = true)
    (tail : List Char) :
    (name ++ '(' :: tail).takeWhile (· != '(') = name ∧
      (name ++ '(' :: tail).dropWhile (· != '(') = '(' :: tail := by
  have hne : ∀ c ∈ name, (c != '(') = true := by
    intro c hc
    simpa using ne_of_isWordChar (isWordChar_of_identifier hname c hc) (d := '(') (by decide)
  constructor
  · rw [List.takeWhile_append_of_pos hne]
    simp
  · rw [List.dropWhile_append_of_pos hne]
    simp

/-- A call is a word. -/
theorem isWord_callText {name : List Char} {args : List (List Char)}
    (hname : isIdentifier name = true) (hargs : AreArguments args) :
    IsWord (callText name args) := by
  refine ⟨?_, by simp [callText]⟩
  rw [callText, List.append_assoc]
  exact (isWord_identifier hname).phrase.append (.group hargs.phrase .nil)

end Chars

namespace Call

/-- A call as it is written. -/
def write (name : String) (args : List String) : String :=
  name ++ "(" ++ Text.join ", " args ++ ")"

/-- The name can stand in front of arguments, and the arguments can be told apart. -/
structure IsWritable (name : String) (args : List String) : Prop where
  name : Chars.isIdentifier name.toList = true
  args : Chars.AreArguments (args.map String.toList)

variable {name : String} {args : List String}

/-- A call in characters. -/
theorem toList_write (name : String) (args : List String) :
    (write name args).toList = Chars.callText name.toList (args.map String.toList) := by
  simp [write, Chars.callText, Text.join, String.toList_intercalate]

/-- A call as it is written is a word. -/
theorem IsWritable.isWord (h : IsWritable name args) : IsWord (write name args).toList := by
  rw [toList_write]
  exact Chars.isWord_callText h.name h.args

/-- Where a written call starts. -/
theorem IsWritable.head (h : IsWritable name args) :
    ∃ c rest, (write name args).toList = c :: rest ∧ c ≠ '@' ∧ isQuoteMark c = false := by
  obtain ⟨c, rest, hname, hc⟩ := Chars.head?_identifier h.name
  rw [toList_write, hname]
  exact ⟨c, _, rfl, hc⟩

/-- A written call is read as it was written, less one pair of quotes around each argument. -/
theorem IsWritable.parse (h : IsWritable name args) :
    Call.parse (write name args) = .ok ⟨name, args.map Token.unquote⟩ := by
  have htrim := h.isWord.trim
  obtain ⟨htake, hdrop⟩ := Chars.takeWhile_callText h.name
    (List.intercalate [',', ' '] (args.map String.toList) ++ [')'])
  rw [toList_write, Chars.callText, List.append_assoc, List.cons_append] at htrim
  have hargs := congrArg (List.map String.ofList) (Chars.splitArguments_intercalate h.args)
  rw [List.map_map] at hargs
  simp only [Call.parse, toList_write, Chars.callText, List.append_assoc, List.cons_append, htrim,
    htake, hdrop]
  have hlast : (name.toList ++
      '(' :: (List.intercalate [',', ' '] (args.map String.toList) ++ [')'])).getLast? =
        some ')' := by
    simp [List.getLast?_append, List.getLast?_cons]
  rw [hlast, List.dropLast_concat, (Chars.isWord_identifier h.name).trim]
  simp only [Function.comp_def] at hargs
  simp [hargs, Token.unquote, Function.comp_def]

/-- A call as it is written is shaped like a call. -/
theorem IsWritable.isShaped (h : IsWritable name args) :
    Call.isShaped (write name args) = true := by
  obtain ⟨c, rest, hname, hc, -⟩ := Chars.head?_identifier h.name
  have htrim := h.isWord.trim
  obtain ⟨htake, hdrop⟩ := Chars.takeWhile_callText h.name
    (List.intercalate [',', ' '] (args.map String.toList) ++ [')'])
  have hclose := Chars.closing?_group h.args.phrase []
  rw [toList_write, Chars.callText, List.append_assoc, List.cons_append] at htrim
  simp only [Call.isShaped, toList_write, Chars.callText, List.append_assoc, List.cons_append,
    htrim, htake, hdrop, (Chars.isWord_identifier h.name).trim, h.name]
  rw [List.cons_append] at hclose
  simp [hclose, hname, hc]

/-- A call as it is written has no marker. -/
theorem IsWritable.dropMarker (h : IsWritable name args) :
    Call.dropMarker (write name args) = write name args := by
  obtain ⟨c, rest, hcs, hc, -⟩ := h.head
  unfold Call.dropMarker
  rw [h.isWord.trim]
  split
  · next heq =>
    rw [hcs] at heq
    simp at heq
    exact absurd heq.1 hc
  · exact String.ofList_toList

/-- The mark in front of a word is dropped. -/
theorem dropMarker_marked {text : String} (h : IsWord text.toList) :
    Call.dropMarker ("@" ++ text) = text := by
  have hword : IsWord ('@' :: text.toList) :=
    ⟨.char (by decide) (by decide) h.phrase, List.cons_ne_nil _ _⟩
  have hcs : ("@" ++ text).toList = '@' :: text.toList := by simp
  simp [Call.dropMarker, hcs, hword.trim]

end Call

/-! ### Joined words -/

namespace Text

/-- Texts joined by spaces, in characters. -/
theorem toList_join (words : List String) :
    (join " " words).toList = List.intercalate [' '] (words.map String.toList) := by
  simp [join, String.toList_intercalate]

/-- The first two of some texts are joined by a space. -/
theorem join_cons_cons (first second : String) (words : List String) :
    join " " (first :: second :: words) = first ++ " " ++ join " " (second :: words) := by
  refine String.toList_inj.1 ?_
  simp [toList_join, List.intercalate_cons_cons]

/-- Joined words start with the first of them. -/
theorem exists_join_cons (first : String) (words : List String) :
    ∃ rest, join " " (first :: words) = first ++ rest := by
  cases words with
  | nil => exact ⟨"", String.toList_inj.1 (by simp [toList_join])⟩
  | cons second words => exact ⟨_, by rw [join_cons_cons, String.append_assoc]⟩

end Text

/-! ### Tokens -/

namespace Token

/-- A token in characters. -/
theorem toList_format (s : String) : (format s).toList = Chars.formatToken s.toList := by
  simp [format]

/-- A token as it is written is one word. -/
theorem isWord_format (s : String) : IsWord (format s).toList := by
  rw [toList_format]
  exact isWord_formatToken _

/-- A token is read as the text it was written for. -/
@[simp]
theorem unquote_format (s : String) : unquote (format s) = s := by
  rw [unquote, toList_format, Chars.unquote_formatToken, String.ofList_toList]

/-- A token is never empty. -/
theorem format_ne_empty (s : String) : format s ≠ "" := by
  intro h
  exact (isWord_format s).ne_nil (by rw [h]; rfl)

/-- How a token is written: as it is if it is plain, else in quotes. -/
theorem format_cases (s : String) :
    ((!s.toList.isEmpty && s.toList.all Chars.isPlain) = true ∧ format s = s) ∨
      ((!s.toList.isEmpty && s.toList.all Chars.isPlain) = false ∧
        (format s).toList = '"' :: (Chars.escape s.toList ++ ['"'])) := by
  cases hplain : !s.toList.isEmpty && s.toList.all Chars.isPlain with
  | true =>
    refine .inl ⟨rfl, ?_⟩
    rw [format, Chars.formatToken, if_pos hplain, String.ofList_toList]
  | false =>
    refine .inr ⟨rfl, ?_⟩
    rw [toList_format, Chars.formatToken, hplain]
    rfl

/-- A token is no call. -/
theorem isShaped_format (s : String) : Call.isShaped (format s) = false := by
  have htrim := (isWord_format s).trim
  rcases format_cases s with ⟨hplain, hform⟩ | ⟨-, hform⟩
  · rw [hform] at htrim ⊢
    have hparen : s.toList.dropWhile (· != '(') = [] := by
      refine List.dropWhile_eq_nil_iff.2 fun c hc ↦ ?_
      simp only [Bool.and_eq_true, List.all_eq_true] at hplain
      have hword : isWordChar c = true := by simp [isWordChar, hplain.2 c hc]
      simpa using ne_of_isWordChar hword (d := '(') (by decide)
    simp [Call.isShaped, htrim, hparen, Scan.closing?]
  · rw [hform] at htrim
    simp [Call.isShaped, hform, htrim, Chars.isIdentifier_trim_quote]

/-- What is in quotes is no number. -/
theorem parse?_of_format {s : String} {n : Binary64} (h : Number.parse? (format s) = some n) :
    Number.parse? s = some n := by
  rcases format_cases s with ⟨-, hform⟩ | ⟨-, hform⟩
  · rwa [hform] at h
  · have htrim := (isWord_format s).trim
    rw [hform] at htrim
    have hmark : Text.asciiLowerChar '"' = '"' := by decide
    simp [Number.parse?, hform, htrim, hmark] at h

/-- A word that starts with no quote mark has no quotes to drop. -/
theorem unquote_eq_self {s : String} (hs : IsWord s.toList)
    (hhead : ∀ c ∈ s.toList.head?, isQuoteMark c = false) : unquote s = s := by
  rw [unquote, Chars.unquote_eq_trim (by rwa [hs.trim]), hs.trim, String.ofList_toList]

/-- The pieces of a line are its tokens. -/
theorem splitLine_join {ws : List String} (h : ∀ w ∈ ws, IsPiece w.toList) :
    splitLine (Text.join " " ws) = ws := by
  rw [splitLine, Text.toList_join, Chars.splitLine_intercalate, List.map_map]
  · simp [Function.comp_def]
  · intro w hw
    obtain ⟨v, hv, rfl⟩ := List.mem_map.1 hw
    exact h v hv

end Token

/-! ### Comparisons -/

/-- What a comparison is written between: a token or a call. -/
inductive IsOperand : String → Prop
  | token (text : String) : IsOperand (Token.format text)
  | call {name : String} {args : List String} (h : Call.IsWritable name args) :
    IsOperand (Call.write name args)

/-- An operand is a word. -/
theorem IsOperand.isWord {s : String} (h : IsOperand s) : IsWord s.toList := by
  cases h with
  | token text => exact Token.isWord_format text
  | call h => exact h.isWord

/-- An operand shows no mark. -/
theorem IsOperand.head {s : String} (h : IsOperand s) :
    ∃ c rest, s.toList = c :: rest ∧ c ≠ '@' ∧ Text.isWhite c = false := by
  have hword := h.isWord
  obtain ⟨c, rest, hcs⟩ := List.exists_cons_of_ne_nil hword.ne_nil
  refine ⟨c, rest, hcs, ?_, hword.head?_not_white c (by rw [hcs]; rfl)⟩
  cases h with
  | token text =>
    rintro rfl
    rw [Token.toList_format, Chars.formatToken] at hcs
    split at hcs
    · next hplain =>
      simp only [Bool.and_eq_true, List.all_eq_true] at hplain
      have hat := hplain.2 '@' (by rw [hcs]; exact List.mem_cons_self)
      revert hat
      decide
    · simp at hcs
  | call hcall =>
    obtain ⟨c', rest', hcs', hc', -⟩ := hcall.head
    rw [hcs'] at hcs
    rw [List.cons.injEq] at hcs
    exact hcs.1 ▸ hc'

namespace Relation

/-- The characters that comparison signs start with. -/
def isSignChar (c : Char) : Bool :=
  c == '>' || c == '<' || c == '!' || c == '='

/-- A word character is no part of a sign. -/
theorem not_isSignChar_of_isWordChar {c : Char}
    (h : isWordChar c = true) : isSignChar c = false := by
  have hgreater := ne_of_isWordChar h (d := '>') (by decide)
  have hless := ne_of_isWordChar h (d := '<') (by decide)
  have hbang := ne_of_isWordChar h (d := '!') (by decide)
  have hequal := ne_of_isWordChar h (d := '=') (by decide)
  simp [isSignChar, hgreater, hless, hbang, hequal]

/-- A sign starts with a sign character. -/
theorem symbol_cases (r : Relation) : ∃ c cs, r.symbol.toList = c :: cs ∧ isSignChar c = true ∧
    isOrdinary c = true := by
  cases r
  all_goals exact ⟨_, _, rfl, by decide, by decide⟩

/-- A sign is read as its relation. -/
theorem ofSymbol?_symbol (r : Relation) : ofSymbol? r.symbol = some r := by
  cases r <;> decide

/-- Before a space a sign is the first one that fits. -/
theorem find?_symbol (r : Relation) (rest : List Char) :
    (all.map fun r ↦ r.symbol.toList).find? (·.isPrefixOf (r.symbol.toList ++ ' ' :: rest)) =
      some r.symbol.toList := by
  cases r <;> rfl

/-- A sign at the top level is found at once. -/
theorem find?_here {s : Scan} (hs : s.IsCalm) (hd : s.depth = 0) (r : Relation)
    (rest : List Char) :
    Scan.find? (all.map fun r ↦ r.symbol.toList) s (r.symbol.toList ++ ' ' :: rest) =
      some ([], r.symbol.toList, ' ' :: rest) := by
  obtain ⟨c, cs, hsign, -, hord⟩ := r.symbol_cases
  have hcut := r.find?_symbol rest
  have htop : s.isTop c = true := by
    rw [hs.isTop_ordinary hord, hd]
    rfl
  have hparen : c ≠ '(' ∧ c ≠ ')' := by
    simp only [isOrdinary, Bool.and_eq_true, bne_iff_ne] at hord
    exact ⟨hord.1.1.2, hord.1.2⟩
  rw [hsign, List.cons_append] at hcut ⊢
  simp [Scan.find?, htop, hparen, hcut]

end Relation

namespace Comparison

/-- A comparison as it is written. -/
def write (left : String) (relation : Relation) (right : String) : String :=
  left ++ " " ++ relation.symbol ++ " " ++ right

/-- A comparison in characters. -/
theorem toList_write (left : String) (relation : Relation) (right : String) :
    (write left relation right).toList =
      left.toList ++ ' ' :: (relation.symbol.toList ++ ' ' :: right.toList) := by
  simp [write]

variable {left right : String}

/-- A comparison has no white space around it. -/
theorem trim_write (relation : Relation) (hl : IsWord left.toList) (hr : IsWord right.toList) :
    Chars.trim (write left relation right).toList = (write left relation right).toList := by
  rw [toList_write]
  refine Chars.trim_eq_self (fun c hc ↦ ?_) fun c hc ↦ ?_
  · refine hl.head?_not_white c ?_
    rw [List.head?_append] at hc
    obtain ⟨d, hd⟩ := Option.ne_none_iff_exists'.1 (mt List.head?_eq_none_iff.1 hl.ne_nil)
    rw [hd] at hc ⊢
    exact hc
  · refine hr.getLast?_not_white c ?_
    rw [List.getLast?_append, List.getLast?_cons, List.getLast?_append, List.getLast?_cons] at hc
    obtain ⟨d, hd⟩ := Option.ne_none_iff_exists'.1 (mt List.getLast?_eq_none_iff.1 hr.ne_nil)
    rw [hd] at hc ⊢
    simpa using hc

/-- A written comparison splits at its own sign. -/
theorem split?_write (relation : Relation) (hl : IsWord left.toList) (hr : IsWord right.toList) :
    split? (write left relation right) = some ⟨left, relation, right⟩ := by
  -- the operand before the sign and the space after it hold no sign
  have hfront : Phrase (fun c ↦ !Relation.isSignChar c) (left.toList ++ [' ']) :=
    (hl.phrase.mono fun c hc ↦ by simpa using Relation.not_isSignChar_of_isWordChar hc).append
      (.char (by decide) (by decide) .nil)
  obtain ⟨hs, hd⟩ := hfront.run Scan.isCalm_start
  have hops : ∀ operator ∈ Relation.all.map fun r ↦ r.symbol.toList,
      ∃ c cs, operator = c :: cs ∧ Relation.isSignChar c = true := by
    intro operator hop
    obtain ⟨r, -, rfl⟩ := List.mem_map.1 hop
    obtain ⟨c, cs, h, hc, -⟩ := r.symbol_cases
    exact ⟨c, cs, h, hc⟩
  have hpass : Scan.Passes Relation.isSignChar {} (left.toList ++ [' ']) :=
    hfront.passes Scan.isCalm_start (fun _ h ↦ by simpa using h) rfl rfl
  have hfind := hpass.find? hops (relation.symbol.toList ++ ' ' :: right.toList)
  have hltrim : Chars.trim (left.toList ++ [' ']) = left.toList := by
    rw [Chars.trim_append_white (by simp [Text.isWhite]), hl.trim]
  have hrtrim : Chars.trim (' ' :: right.toList) = right.toList := by
    rw [← List.singleton_append, Chars.trim_append (by simp [Text.isWhite]), hr.trim]
  have htext : (write left relation right).toList =
      left.toList ++ [' '] ++ (relation.symbol.toList ++ ' ' :: right.toList) := by
    rw [toList_write]
    simp
  rw [relation.find?_here hs (hd.trans rfl), ← htext] at hfind
  have hlne : left.toList.isEmpty = false := by simpa using hl.ne_nil
  have hrne : right.toList.isEmpty = false := by simpa using hr.ne_nil
  have hsymbol : Relation.ofSymbol? (String.ofList relation.symbol.toList) = some relation := by
    rw [String.ofList_toList, Relation.ofSymbol?_symbol]
  simp only [split?, trim_write relation hl hr, hfind, Option.map_some, Option.bind_eq_bind,
    Option.bind_some, List.append_nil, hltrim, hrtrim, hlne, hrne, hsymbol]
  simp

/-- A comparison that starts with a call is not taken for a call. -/
theorem isShaped_write_call (relation : Relation) {name : String} {args : List String}
    (h : Call.IsWritable name args) (hr : IsWord right.toList) :
    Call.isShaped (write (Call.write name args) relation right) = false := by
  have htrim := trim_write relation h.isWord hr
  have hclose := Chars.closing?_group h.args.phrase
    (' ' :: (relation.symbol.toList ++ ' ' :: right.toList))
  obtain ⟨htake, hdrop⟩ := Chars.takeWhile_callText h.name
    (List.intercalate [',', ' '] (args.map String.toList) ++
      ')' :: ' ' :: (relation.symbol.toList ++ ' ' :: right.toList))
  simp only [toList_write, Call.toList_write, Chars.callText, List.append_assoc, List.cons_append,
    List.nil_append] at htrim hclose
  simp only [Call.isShaped, toList_write, Call.toList_write, Chars.callText, List.append_assoc,
    List.cons_append, List.nil_append, htrim, hdrop, hclose]
  simp

/-- Behind a plain word there is no parenthesis before the sign. -/
theorem mem_takeWhile_write {relation : Relation} {sign : Char} {signs : List Char}
    (hsign : relation.symbol.toList = sign :: signs) (hc : Relation.isSignChar sign = true)
    (hplain : ∀ c ∈ left.toList, Chars.isPlain c = true) (right : String) :
    sign ∈ Chars.trim ((write left relation right).toList.takeWhile (· != '(')) := by
  have hopen : ∀ c ∈ left.toList ++ [' '] ++ [sign], (c != '(') = true := by
    intro c hmem
    simp only [List.mem_append, List.mem_singleton] at hmem
    rcases hmem with (hmem | rfl) | rfl
    · have hword : isWordChar c = true := by simp [isWordChar, hplain c hmem]
      simpa using ne_of_isWordChar hword (d := '(') (by decide)
    · decide
    · simp only [Relation.isSignChar, Bool.or_eq_true, beq_iff_eq] at hc
      rcases hc with ((rfl | rfl) | rfl) | rfl <;> decide
  rw [toList_write, hsign]
  refine Chars.mem_trim ?_ ?_
  · have hsplit : left.toList ++ ' ' :: (sign :: signs ++ ' ' :: right.toList) =
        left.toList ++ [' '] ++ [sign] ++ (signs ++ ' ' :: right.toList) := by simp
    rw [hsplit, List.takeWhile_append_of_pos hopen]
    simp
  · simp only [Relation.isSignChar, Bool.or_eq_true, beq_iff_eq] at hc
    rcases hc with ((rfl | rfl) | rfl) | rfl <;> decide

/-- A comparison that starts with plain characters is not taken for a call. -/
theorem isShaped_write_plain (relation : Relation) (hl : IsWord left.toList)
    (hplain : ∀ c ∈ left.toList, Chars.isPlain c = true) (hr : IsWord right.toList) :
    Call.isShaped (write left relation right) = false := by
  obtain ⟨sign, signs, hsign, hc, -⟩ := relation.symbol_cases
  have htrim := trim_write relation hl hr
  have hmem := mem_takeWhile_write hsign hc hplain right
  have hnot : Chars.isIdentifier (Chars.trim
      ((write left relation right).toList.takeWhile (· != '('))) = false := by
    rw [Bool.eq_false_iff]
    intro hid
    have := Relation.not_isSignChar_of_isWordChar (Chars.isWordChar_of_identifier hid sign hmem)
    rw [hc] at this
    cases this
  simp [Call.isShaped, htrim, hnot]

/-- A written comparison is not taken for a call: its sign stands in front of the first
parenthesis, or behind the one that closes it. -/
theorem isShaped_write (relation : Relation) (hl : IsOperand left) (hr : IsWord right.toList) :
    Call.isShaped (write left relation right) = false := by
  have hword := hl.isWord
  cases hl with
  | call h => exact isShaped_write_call relation h hr
  | token text =>
    by_cases hplain : (!text.toList.isEmpty && text.toList.all Chars.isPlain) = true
    · have hform : (Token.format text).toList = text.toList := by
        rw [Token.toList_format, Chars.formatToken, if_pos hplain]
      simp only [Bool.and_eq_true, List.all_eq_true] at hplain
      exact isShaped_write_plain relation hword (hform ▸ hplain.2) hr
    · have hform : (Token.format text).toList = '"' :: (Chars.escape text.toList ++ ['"']) := by
        rw [Token.toList_format, Chars.formatToken, if_neg hplain, List.cons_append]
      have htrim := trim_write relation hword hr
      rw [toList_write, hform] at htrim
      simp only [Call.isShaped, toList_write, hform, htrim]
      simp [Chars.isIdentifier_trim_quote]

/-- A written comparison shows no mark. -/
theorem startsWith_write (relation : Relation) (hl : IsOperand left) (right : String) :
    Text.startsWith (write left relation right) "@" = false := by
  obtain ⟨c, rest, hcs, hc, -⟩ := hl.head
  have hat : "@".toList = ['@'] := rfl
  rw [Text.startsWith, toList_write, hcs, hat]
  simp [List.isPrefixOf, Ne.symm hc]

end Comparison

/-! ### Numbers -/

namespace Number

/-- A digit is a plain character. -/
theorem isPlain_of_isDigit {c : Char} (h : c.isDigit = true) : Chars.isPlain c = true := by
  simp [Chars.isPlain, Char.isAlphanum, h]

/-- A decimal number is written with plain characters. -/
theorem isPlain_of_mem_toDigits {n : Nat} {c : Char} (h : c ∈ Nat.toDigits 10 n) :
    Chars.isPlain c = true :=
  isPlain_of_isDigit (Nat.isDigit_of_mem_toDigits (by decide) (by decide) h)

/-- The digits of a decimal are plain characters. -/
theorem isPlain_scientific (d : Decimal) : ∀ c ∈ d.scientific.1, Chars.isPlain c = true := by
  intro c hc
  simp only [Decimal.scientific, List.mem_reverse] at hc
  exact isPlain_of_mem_toDigits (List.mem_reverse.1 ((List.dropWhile_sublist _).subset hc))

/-- A number with its point is written with plain characters. -/
theorem isPlain_positional {digits : List Char} (h : ∀ c ∈ digits, Chars.isPlain c = true)
    (power : Int) : ∀ c ∈ Chars.positional digits power, Chars.isPlain c = true := by
  intro c hc
  unfold Chars.positional at hc
  split at hc
  · simp only [List.mem_append, List.mem_replicate] at hc
    rcases hc with (hc | ⟨-, rfl⟩) | hc
    · exact List.all_eq_true.1 (by decide) c hc
    · rfl
    · exact h c hc
  · dsimp only at hc
    split at hc
    · simp only [List.mem_append, List.mem_replicate] at hc
      rcases hc with hc | ⟨-, rfl⟩
      exacts [h c hc, rfl]
    · simp only [List.mem_append, List.mem_cons] at hc
      rcases hc with hc | rfl | hc
      exacts [h c (List.mem_of_mem_take hc), rfl, h c (List.mem_of_mem_drop hc)]

/-- A number with an exponent is written with plain characters. -/
theorem isPlain_exponential {digits : List Char} (h : ∀ c ∈ digits, Chars.isPlain c = true)
    (power : Int) : ∀ c ∈ Chars.exponential digits power, Chars.isPlain c = true := by
  intro c hc
  simp only [Chars.exponential, List.mem_append, List.mem_cons] at hc
  rcases hc with hc | rfl | rfl | hc
  · split at hc
    · exact h c hc
    · simp only [List.mem_append, List.mem_cons] at hc
      rcases hc with hc | rfl | hc
      exacts [h c (List.mem_of_mem_take hc), rfl, h c (List.mem_of_mem_drop hc)]
  · rfl
  · split <;> rfl
  · exact isPlain_of_mem_toDigits hc

/-- A number is written with at least one digit. -/
theorem positional_ne_nil (digits : List Char) (power : Int) :
    Chars.positional digits power ≠ [] := by
  intro h
  have hlen := congrArg List.length h
  unfold Chars.positional at hlen
  split at hlen
  · simp at hlen
  · dsimp only at hlen
    split at hlen
    · rw [List.length_append, List.length_replicate, List.length_nil] at hlen
      omega
    · simp at hlen

/-- A sign in front keeps a number plain. -/
theorem plain_signed (negative : Bool) {body : List Char}
    (h : (∀ c ∈ body, Chars.isPlain c = true) ∧ body ≠ []) :
    (∀ c ∈ (if negative = true then '-' :: body else body), Chars.isPlain c = true) ∧
      (if negative = true then '-' :: body else body) ≠ [] := by
  cases negative with
  | false => exact h
  | true =>
    refine ⟨fun c hc ↦ ?_, List.cons_ne_nil _ _⟩
    rcases List.mem_cons.1 hc with rfl | hc
    exacts [rfl, h.1 c hc]

/-- A number is written with plain characters only. -/
theorem format_plain (x : Binary64) :
    (∀ c ∈ (format x).toList, Chars.isPlain c = true) ∧ (format x).toList ≠ [] := by
  unfold format
  cases x with
  | nan => exact ⟨List.all_eq_true.1 (by decide), by decide⟩
  | infinite negative => cases negative <;> exact ⟨List.all_eq_true.1 (by decide), by decide⟩
  | finite negative significand exponent =>
    dsimp only
    split
    · exact ⟨List.all_eq_true.1 (by decide), by decide⟩
    · rw [String.toList_ofList]
      have hscientific := isPlain_scientific (Decimal.shortest .up significand exponent)
      generalize (Decimal.shortest .up significand exponent).scientific = parts at hscientific ⊢
      obtain ⟨digits, power⟩ := parts
      refine plain_signed negative ?_
      split
      · exact ⟨isPlain_exponential hscientific power, by simp [Chars.exponential]⟩
      · split
        · exact ⟨fun c hc ↦ isPlain_of_mem_toDigits hc, Nat.toDigits_ne_nil⟩
        · exact ⟨isPlain_positional hscientific power, positional_ne_nil digits power⟩

end Number

end BlockScript
