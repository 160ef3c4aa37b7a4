import BlockScript.Proofs.Spelling

/-!
# Rendered texts

What is written where a value goes is a token or a call, and the arguments of a call are tokens and
calls again, to any depth. A `Rendering` is such a text with its structure. The texts in tokens are
arbitrary: they may hold quotes of both kinds, backslashes, commas, parentheses and white space.

Every rendering is a word (`Rendering.isWord_text`), by induction on its structure, so the reader of
quotes and parentheses passes over it at whatever depth it stands. Hence a rendered call is taken
for a call and reads back as its name and its arguments (`Call.parse_rendered`), the tokens of a
line read back as the texts they were made of (`Token.tokenize_join_format`), and a comparison of
two renderings is split at its own sign, whatever signs the two hold (`Comparison.split?_rendered`).
-/

namespace BlockScript

/-- A name that can stand in front of arguments. -/
abbrev Identifier := { name : String // Chars.isIdentifier name.toList = true }

/-- A text with the structure that it was written with. -/
inductive Rendering where
  /-- A token that is made of any text. -/
  | token (text : String)
  /-- A call, with or without the mark of an expression in front. -/
  | call (marked : Bool) (name : Identifier) (args : List Rendering)

namespace Rendering

mutual

/-- How it is written. -/
def text : Rendering → String
  | .token text => Token.format text
  | .call true name args => Listing.marked (Call.write name (texts args))
  | .call false name args => Call.write name (texts args)

/-- How the arguments of a call are written. -/
def texts : List Rendering → List String
  | [] => []
  | r :: rs => r.text :: texts rs

end

/-- What is left of an argument when it was read: the text that a token was made of, and a call as
it is written. -/
def content : Rendering → String
  | .token text => text
  | .call marked name args => (Rendering.call marked name args).text

theorem texts_eq_map (rs : List Rendering) : texts rs = rs.map text := by
  induction rs with
  | nil => rfl
  | cons r rs ih => rw [texts, ih, List.map_cons]

/-- Words can be the arguments of a call. -/
theorem isWritable_of_isWord (name : Identifier) {args : List String}
    (h : ∀ arg ∈ args, IsWord arg.toList) : Call.IsWritable name args where
  name := name.2
  args := List.forall_mem_map.2 fun arg harg ↦ (h arg harg).isRow.argument

theorem isWord_marked {text : String} (h : IsWord text.toList) :
    IsWord (Listing.marked text).toList := by
  have hcs : (Listing.marked text).toList = '@' :: text.toList := by simp [Listing.marked]
  rw [hcs]
  exact ⟨.char (by decide) (by decide) h.phrase, List.cons_ne_nil _ _⟩

mutual

/-- Every rendering is a word: the quotes of its tokens and the parentheses of its calls are
closed. -/
theorem isWord_text : ∀ r : Rendering, IsWord r.text.toList
  | .token text => Token.isWord_format text
  | .call true name args =>
    isWord_marked (isWritable_of_isWord name (isWord_of_mem_texts args)).isWord
  | .call false name args => (isWritable_of_isWord name (isWord_of_mem_texts args)).isWord

theorem isWord_of_mem_texts : ∀ rs : List Rendering, ∀ s ∈ texts rs, IsWord s.toList
  | [], _, hs => absurd hs List.not_mem_nil
  | r :: rs, _, hs => (List.mem_cons.1 hs).elim (fun h ↦ h ▸ isWord_text r)
      (isWord_of_mem_texts rs _)

end

/-- The arguments of a rendered call can be told apart. -/
theorem isWritable (name : Identifier) (args : List Rendering) :
    Call.IsWritable name (args.map text) :=
  isWritable_of_isWord name (texts_eq_map args ▸ isWord_of_mem_texts args)

/-- A call has no quotes around it that a reader could drop, with or without its mark. -/
theorem head?_call (marked : Bool) (name : Identifier) (args : List Rendering) :
    ∀ c ∈ (Rendering.call marked name args).text.toList.head?, isQuoteMark c = false := by
  intro c hc
  cases marked with
  | true =>
    have hcs : (Rendering.call true name args).text.toList =
        '@' :: (Call.write name (texts args)).toList := by
      simp [text, Listing.marked]
    rw [hcs] at hc
    obtain rfl := Option.some.inj hc
    decide
  | false =>
    obtain ⟨d, rest, hcs, -, hd⟩ := (isWritable name args).head
    rw [text, texts_eq_map, hcs] at hc
    obtain rfl := Option.some.inj hc
    exact hd

/-- Reading an argument gives its content. -/
theorem unquote_text (r : Rendering) : Token.unquote r.text = r.content := by
  cases r with
  | token text => exact Token.unquote_format text
  | call marked name args =>
    exact Token.unquote_eq_self (isWord_text _) (head?_call marked name args)

end Rendering

/-- **Calls read back at any depth.** A rendered call is shaped like a call and reads as its name
and its arguments: each token as the text it was made of, and each call as it is written. -/
theorem Call.parse_rendered (name : Identifier) (args : List Rendering) :
    Call.isShaped (Call.write name (args.map Rendering.text)) = true ∧
      Call.parse (Call.write name (args.map Rendering.text)) =
        .ok ⟨name, args.map Rendering.content⟩ := by
  have hwritable := Rendering.isWritable name args
  have hcontents : (args.map Rendering.text).map Token.unquote = args.map Rendering.content := by
    rw [List.map_map]
    exact List.map_congr_left fun r _ ↦ Rendering.unquote_text r
  refine ⟨hwritable.isShaped, ?_⟩
  rw [hwritable.parse, hcontents]

example : Call.parse "join(\"a, (\\\"b\", @x-pos(1))" =
    .ok ⟨"join", ["a, (\"b", "@x-pos(1)"]⟩ := by
  decide

/-- **Tokens of a line read back.** Texts that are written as tokens with single spaces between them
are the tokens of that line, with their quotes and without. -/
theorem Token.tokenize_join_format (ts : List String) :
    Token.tokenize (Text.join " " (ts.map Token.format)) = ts ∧
      Token.splitLine (Text.join " " (ts.map Token.format)) = ts.map Token.format := by
  have hpieces : ∀ w ∈ ts.map Token.format, IsPiece w.toList :=
    List.forall_mem_map.2 fun t _ ↦ (Token.isWord_format t).isPiece
  have hsplit := Token.splitLine_join hpieces
  refine ⟨?_, hsplit⟩
  rw [Token.tokenize, hsplit, List.map_map]
  calc ts.map (Token.unquote ∘ Token.format)
      = ts.map id := List.map_congr_left fun t _ ↦ Token.unquote_format t
    _ = ts := List.map_id ts

/-- **A comparison is split at its own sign.** Each operand is a token that is made of any text, or
a call whose arguments are such again. The signs that stand in quotes or in parentheses, before or
after the one between the operands, are passed over, and of a sign of two characters no half is
taken for it. -/
theorem Comparison.split?_rendered (left right : Rendering) (relation : Relation) :
    Comparison.split? (left.text ++ " " ++ relation.symbol ++ " " ++ right.text) =
      some ⟨left.text, relation, right.text⟩ :=
  -- No character of a word that stands at the top level can start a sign, nor can the space.
  Comparison.split?_write relation left.isWord_text right.isWord_text

example : Comparison.split? "join(\"a == (b\", @not(\"c\")) >= \"d <= \\\" > e\"" =
    some ⟨"join(\"a == (b\", @not(\"c\"))", .atLeast, "\"d <= \\\" > e\""⟩ := by
  decide

end BlockScript
