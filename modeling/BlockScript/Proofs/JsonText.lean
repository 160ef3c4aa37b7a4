import BlockScript.Json.Parser
import BlockScript.Json.Printer
import BlockScript.Project.Decode
import BlockScript.Proofs.Digits

/-!
# Texts in JSON documents

A string in a document reads back as the text it was written for, whatever its characters
(`Json.value?_quoteText`), and so does a list of strings (`Project.textsOf?_render`).
-/

namespace BlockScript

namespace Json

/-! ### Strings -/

theorem codeUnit?_fixed {n : Nat} (h : n < 16 ^ 4) (cs : List Char) :
    codeUnit? (Hex.fixed 4 n ++ cs) = some (n, cs) := by
  have hvalue := Hex.value?_fixed h
  have hlength := Hex.length_fixed 4 n
  match hdigits : Hex.fixed 4 n, hlength with
  | [a, b, c, d], _ =>
    rw [hdigits] at hvalue
    simp only [List.cons_append, List.nil_append, codeUnit?, hvalue, Option.map_some]

theorem string?_backslash {cs rest : List Char} {c : Char} (h : escape? cs = some (c, rest))
    (bound : Nat) : string? (bound + 1) ('\\' :: cs) =
      (string? bound rest).map fun read ↦ (c :: read.1, read.2) := by
  have hquote : ('\\' == '"') = false := by decide
  have hcontrol : ¬ '\\'.toNat < 32 := by decide
  simp only [string?, hquote, Bool.false_eq_true, if_false, hcontrol, beq_self_eq_true, if_true, h,
    Option.bind_eq_bind, Option.bind_some]
  cases string? bound rest <;> rfl

/-- Between quotes these characters stand for `c`: they are an escape of it, or the character itself
where it needs none. -/
def StandsFor (out : List Char) (c : Char) : Prop :=
  (∃ tail, out = '\\' :: tail ∧ ∀ cs, escape? (tail ++ cs) = some (c, cs)) ∨
    out = [c] ∧ (c == '"') = false ∧ (c == '\\') = false ∧ ¬ c.toNat < 32

theorem standsFor_escapeChar (c : Char) : StandsFor (escapeChar c) c := by
  -- each branch is about one character, which is known by its number
  have hcode : ∀ n, c.toNat = n → c = Char.ofNat n := fun n hn ↦ by rw [← hn, Char.ofNat_toNat]
  unfold escapeChar
  split
  · next h => exact .inl ⟨['"'], rfl, fun cs ↦ by rw [eq_of_beq h]; rfl⟩
  next hquote =>
  split
  · next h => exact .inl ⟨['\\'], rfl, fun cs ↦ by rw [eq_of_beq h]; rfl⟩
  next hslash =>
  split
  · next h => exact .inl ⟨['b'], rfl, fun cs ↦ by rw [hcode 8 h]; rfl⟩
  split
  · next h => exact .inl ⟨['f'], rfl, fun cs ↦ by rw [hcode 12 h]; rfl⟩
  split
  · next h => exact .inl ⟨['n'], rfl, fun cs ↦ by rw [eq_of_beq h]; rfl⟩
  split
  · next h => exact .inl ⟨['r'], rfl, fun cs ↦ by rw [eq_of_beq h]; rfl⟩
  split
  · next h => exact .inl ⟨['t'], rfl, fun cs ↦ by rw [eq_of_beq h]; rfl⟩
  split
  · -- the other control characters are written by their number
    next h =>
    refine .inl ⟨'u' :: Hex.fixed 4 c.toNat, rfl, fun cs ↦ ?_⟩
    have hlow : ¬ (0xDC00 ≤ c.toNat && c.toNat ≤ 0xDFFF) = true := by simp; omega
    have hhigh : ¬ (0xD800 ≤ c.toNat && c.toNat ≤ 0xDBFF) = true := by simp; omega
    have hunit := codeUnit?_fixed (n := c.toNat) (by omega) cs
    simp only [List.cons_append, escape?, hunit, Option.bind_eq_bind, Option.bind_some, hlow, hhigh,
      if_false, Char.ofNat_toNat, Bool.false_eq_true]
  · next h =>
    exact .inr ⟨rfl, Bool.eq_false_iff.2 hquote, Bool.eq_false_iff.2 hslash, h⟩

/-- A written character is read as one. -/
theorem string?_escapeChar (c : Char) (bound : Nat) (cs : List Char) :
    string? (bound + 1) (escapeChar c ++ cs) =
      (string? bound cs).map fun read ↦ (c :: read.1, read.2) := by
  rcases standsFor_escapeChar c with ⟨tail, heq, hescape⟩ | ⟨heq, hquote, hslash, hcontrol⟩
  · rw [heq, List.cons_append]
    exact string?_backslash (hescape cs) bound
  · rw [heq, List.singleton_append]
    simp only [string?, hquote, hslash, hcontrol, Bool.false_eq_true, if_false]
    cases string? bound cs <;> rfl

/-- The characters between the quotes of a string read back as its text. -/
theorem string?_quoted {s : List Char} {bound : Nat} (h : s.length < bound) (cs : List Char) :
    string? bound (s.flatMap escapeChar ++ '"' :: cs) = some (s, cs) := by
  induction s generalizing bound with
  | nil =>
    obtain ⟨bound, rfl⟩ := Nat.exists_eq_succ_of_ne_zero (Nat.ne_of_gt h)
    rfl
  | cons c s ih =>
    obtain ⟨bound, rfl⟩ := Nat.exists_eq_succ_of_ne_zero (Nat.ne_of_gt (Nat.zero_lt_of_lt h))
    have hlt : s.length < bound := Nat.lt_of_succ_lt_succ h
    rw [List.flatMap_cons, List.append_assoc, string?_escapeChar, ih hlt]
    rfl

theorem length_le_escaped (s : List Char) : s.length ≤ (s.flatMap escapeChar).length := by
  induction s with
  | nil => exact Nat.le_refl _
  | cons c s ih =>
    have hpos : 0 < (escapeChar c).length := by
      rcases standsFor_escapeChar c with ⟨tail, heq, -⟩ | ⟨heq, -⟩ <;> rw [heq] <;> simp
    rw [List.flatMap_cons, List.length_append, List.length_cons]
    omega

theorem toList_quoteText (s : String) :
    (quoteText s).toList = '"' :: (s.toList.flatMap escapeChar ++ ['"']) := by
  simp [quoteText]

/-- A string reads back as its text. -/
theorem value?_quoteText (depth : Nat) (s : String) (cs : List Char) :
    value? depth ((quoteText s).toList ++ cs) = some (.str s, cs) := by
  have hbound : s.toList.length < (s.toList.flatMap escapeChar ++ '"' :: cs).length.succ := by
    have := length_le_escaped s.toList
    rw [List.length_append]
    omega
  have hskip : ∀ rest, skipSpace ('"' :: rest) = '"' :: rest := fun _ ↦ rfl
  rw [toList_quoteText, List.cons_append, List.append_assoc, List.singleton_append]
  unfold value?
  rw [hskip]
  simp only [beq_self_eq_true, if_true, string?_quoted hbound, Option.map_some,
    String.ofList_toList]

/-! ### Lists of strings -/

theorem toList_renderItems_cons (s t : String) (texts : List String) :
    (renderItems ((s :: t :: texts).map .str)).toList =
      (quoteText s).toList ++ ',' :: (renderItems ((t :: texts).map .str)).toList := by
  rw [List.map_cons, renderItems]
  · simp [render, List.append_assoc]
  · simp

theorem length_le_renderItems (s : String) (texts : List String) :
    texts.length ≤ (renderItems ((s :: texts).map .str)).toList.length := by
  induction texts generalizing s with
  | nil => exact Nat.zero_le _
  | cons t texts ih =>
    have := ih t
    rw [toList_renderItems_cons, List.length_append, List.length_cons, List.length_cons]
    omega

/-- The strings of a list read back up to the bracket that closes it. -/
theorem items?_quoteText (depth : Nat) (s : String) (texts : List String) {bound : Nat}
    (h : texts.length < bound) (cs : List Char) :
    items? (value? depth) bound ((renderItems ((s :: texts).map .str)).toList ++ ']' :: cs) =
      some ((s :: texts).map .str, cs) := by
  induction texts generalizing s bound with
  | nil =>
    obtain ⟨bound, rfl⟩ := Nat.exists_eq_succ_of_ne_zero (Nat.ne_of_gt h)
    simp only [List.map_cons, List.map_nil, renderItems, render, items?, value?_quoteText]
    rfl
  | cons t texts ih =>
    obtain ⟨bound, rfl⟩ := Nat.exists_eq_succ_of_ne_zero (Nat.ne_of_gt (Nat.zero_lt_of_lt h))
    have hlt : texts.length < bound := Nat.lt_of_succ_lt_succ h
    have hskip : ∀ rest, skipSpace (',' :: rest) = ',' :: rest := fun _ ↦ rfl
    rw [toList_renderItems_cons, List.append_assoc, List.cons_append]
    simp only [items?, value?_quoteText, Option.bind_eq_bind, Option.bind_some, hskip, ih t hlt]
    rfl

theorem renderItems_start (s : String) (texts : List String) :
    ∃ tail, (renderItems ((s :: texts).map .str)).toList = '"' :: tail := by
  cases texts with
  | nil => exact ⟨_, toList_quoteText s⟩
  | cons t texts => exact ⟨_, by rw [toList_renderItems_cons, toList_quoteText, List.cons_append]⟩

/-- A list of strings reads back. -/
theorem parse?_render_texts (texts : List String) :
    parse? (Json.arr (texts.map .str)).render = some (.arr (texts.map .str)) := by
  have hopen : "[".toList = ['['] := rfl
  have hclose : "]".toList = [']'] := rfl
  have hvalue : value? maxDepth ('[' :: ((renderItems (texts.map .str)).toList ++ [']'])) =
      some (.arr (texts.map .str), []) := by
    cases texts with
    | nil => rfl
    | cons s texts =>
      obtain ⟨tail, htail⟩ := renderItems_start s texts
      have hbound : texts.length <
          ((renderItems ((s :: texts).map .str)).toList ++ [']']).length.succ := by
        have := length_le_renderItems s texts
        rw [List.length_append]
        omega
      have hitems := items?_quoteText 126 s texts hbound []
      rw [htail] at hitems ⊢
      -- no white space is written, so none is skipped
      have hskip : ∀ rest, skipSpace ('"' :: rest) = '"' :: rest := fun _ ↦ rfl
      have hskip' : ∀ rest, skipSpace ('[' :: rest) = '[' :: rest := fun _ ↦ rfl
      have hquote : ('[' == '"') = false := by decide
      unfold value? maxDepth
      simp only [hskip', hquote, Bool.false_eq_true, if_false, beq_self_eq_true, if_true,
        List.cons_append, hskip]
      exact congrArg (Option.map fun read ↦ (Json.arr read.1, read.2)) hitems
  simp only [parse?, render, String.toList_append, hopen, hclose, List.cons_append, List.nil_append,
    hvalue, Option.bind_eq_bind, Option.bind_some]
  rfl

end Json

/-- A list of texts reads back from the document that holds it. -/
theorem Project.textsOf?_render (texts : List String) :
    textsOf? (Json.arr (texts.map .str)).render = some texts := by
  have hstrs : (texts.map Json.str).mapM Json.asStr? = some texts := by
    induction texts with
    | nil => rfl
    | cons s texts ih => simp [List.mapM_cons, Json.asStr?, ih]
  simp only [textsOf?, Json.parse?_render_texts, Option.bind_eq_bind, Option.bind_some, Json.asArr?,
    hstrs]

end BlockScript
