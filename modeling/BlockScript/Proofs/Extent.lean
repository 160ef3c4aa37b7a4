import BlockScript.Call
import Mathlib.Data.List.Basic

/-!
# The parts of a text are no longer than the text

Tokens, arguments and operands are cut out of a text, and what is cut out is no longer than what it
was cut out of. Separators are counted as well: the `extent` of some texts is their length when each
takes one more character with it, so that texts which are joined again fit into the text they come
from (`Text.length_join_le`, `Token.extent_splitLine`). The arguments of a call are shorter than the
call (`Call.extent_args`).
-/

namespace BlockScript

/-! ### Characters -/

namespace Chars

/-- A trimmed text is not longer. -/
theorem length_trim_le (cs : List Char) : (trim cs).length ≤ cs.length := by
  have hstart : (trimStart cs).length ≤ cs.length := (List.dropWhile_sublist _).length_le
  have hend : ((trimStart cs).reverse.dropWhile Text.isWhite).length ≤
      (trimStart cs).reverse.length := (List.dropWhile_sublist _).length_le
  rw [List.length_reverse] at hend
  rw [trim, trimEnd, List.length_reverse]
  omega

/-- A text is not longer after its escapes were read. -/
theorem length_unescape_le (cs : List Char) : (unescape cs).length ≤ cs.length := by
  fun_induction unescape cs with
  | case1 => exact Nat.le_refl _
  | case2 => exact Nat.le_refl _
  | case3 c d cs h ih =>
    simp only [List.length_cons]
    omega
  | case4 c d cs h ih =>
    simp only [List.length_cons] at ih ⊢
    omega

/-- A text is not longer without its quotes. -/
theorem length_unquote_le (cs : List Char) : (unquote cs).length ≤ cs.length := by
  have htrim := length_trim_le cs
  unfold unquote
  dsimp only
  split
  · have hunescape := length_unescape_le ((trim cs).drop 1).dropLast
    simp only [List.length_dropLast, List.length_drop] at hunescape
    omega
  · exact htrim

end Chars

/-- The parts of a text between separators fill the text, but for the separators. -/
theorem Scan.total_pieces (isSeparator : Char → Bool) (s : Scan) (cs : List Char) :
    total ((pieces isSeparator s cs).map fun p ↦ p.length + 1) = cs.length + 1 := by
  induction cs generalizing s with
  | nil => rfl
  | cons c cs ih =>
    have hrest := ih (s.step c)
    rw [pieces]
    split
    · simp only [List.map_cons, total_cons, List.length_nil, List.length_cons, hrest]
      omega
    · -- the character goes to the first part
      cases hpieces : pieces isSeparator (s.step c) cs with
      | nil =>
        rw [hpieces] at hrest
        simp at hrest
      | cons p ps =>
        rw [hpieces] at hrest
        simp only [List.modifyHead_cons, List.map_cons, total_cons, List.length_cons] at hrest ⊢
        omega

/-- The two sides of a found operator are not longer than the text. -/
theorem Scan.length_find? {operators : List (List Char)} {s : Scan} {cs : List Char}
    {found : List Char × List Char × List Char} (h : find? operators s cs = some found) :
    found.1.length ≤ cs.length ∧ found.2.2.length ≤ cs.length := by
  induction cs generalizing s found with
  | nil => cases h
  | cons c cs ih =>
    have hlater : ∀ found,
        (find? operators (s.step c) cs).map (fun f ↦ (c :: f.1, f.2)) = some found →
        found.1.length ≤ (c :: cs).length ∧ found.2.2.length ≤ (c :: cs).length := by
      intro found hfound
      obtain ⟨f, hf, rfl⟩ := Option.map_eq_some_iff.1 hfound
      have := ih hf
      simp only [List.length_cons]
      omega
    rw [find?] at h
    split at h
    · split at h
      · obtain rfl := Option.some.inj h
        simp only [List.length_nil, List.length_cons, List.length_drop]
        omega
      · exact hlater found h
    · exact hlater found h

/-! ### Texts -/

/-- How much room texts take when each is followed by a separator. -/
def extent (texts : List String) : Nat :=
  total (texts.map fun s ↦ s.length + 1)

/-- No texts take no room. -/
@[simp]
theorem extent_nil : extent [] = 0 := rfl

/-- The first text takes its length and one more. -/
@[simp]
theorem extent_cons (s : String) (texts : List String) :
    extent (s :: texts) = s.length + 1 + extent texts := rfl

/-- Some of the texts take no more room than all of them. -/
theorem extent_sublist_le {texts more : List String} (h : texts.Sublist more) :
    extent texts ≤ extent more := by
  induction h with
  | slnil => exact Nat.le_refl _
  | cons s h ih =>
    rw [extent_cons]
    omega
  | cons_cons s h ih =>
    rw [extent_cons, extent_cons]
    omega

/-- Texts that do not get longer take no more room. -/
theorem extent_map_le {f : String → String} (hf : ∀ s, (f s).length ≤ s.length)
    (texts : List String) : extent (texts.map f) ≤ extent texts := by
  induction texts with
  | nil => exact Nat.le_refl _
  | cons s texts ih =>
    have := hf s
    rw [List.map_cons, extent_cons, extent_cons]
    omega

/-- Each text is shorter than the room of all. -/
theorem length_le_extent {s : String} {texts : List String} (h : s ∈ texts) :
    s.length + 1 ≤ extent texts := by
  induction texts with
  | nil => cases h
  | cons t texts ih =>
    rw [extent_cons]
    rcases List.mem_cons.1 h with rfl | h
    · omega
    · have := ih h
      omega

/-! ### Cutting and joining -/

namespace Text

/-- A trimmed text is not longer, as a string. -/
theorem length_trim_le (s : String) : (trim s).length ≤ s.length := by
  rw [trim, String.length_ofList, ← String.length_toList]
  exact Chars.length_trim_le s.toList

/-- Joined texts take the room of the texts but for the separator after the last of them. -/
theorem length_join {texts : List String} (h : texts ≠ []) :
    (join " " texts).length + 1 = extent texts := by
  have hchars : ∀ texts : List String, texts ≠ [] →
      ([' '].intercalate (texts.map String.toList)).length + 1 = extent texts := by
    intro texts h
    induction texts with
    | nil => exact absurd rfl h
    | cons s texts ih =>
      cases texts with
      | nil =>
        rw [List.map_singleton, List.intercalate_singleton, String.length_toList]
        rfl
      | cons t texts =>
        have hrest := ih (List.cons_ne_nil _ _)
        rw [List.map_cons] at hrest
        rw [List.map_cons, List.map_cons, List.intercalate_cons_cons, extent_cons, ← hrest]
        simp only [List.length_append, List.length_singleton, String.length_toList]
        omega
  rw [← String.length_toList, join, String.toList_intercalate]
  exact hchars texts h

/-- Texts joined by spaces fit into their room. -/
theorem length_join_le (texts : List String) : (join " " texts).length ≤ extent texts := by
  cases texts with
  | nil => exact Nat.le_refl _
  | cons s texts =>
    have := length_join (List.cons_ne_nil s texts)
    omega

end Text

namespace Token

/-- A text is not longer without its quotes, as a string. -/
theorem length_unquote_le (s : String) : (unquote s).length ≤ s.length := by
  rw [unquote, String.length_ofList, ← String.length_toList]
  exact Chars.length_unquote_le s.toList

/-- The tokens of a line fit into the line, each with the white space that ends it. -/
theorem extent_splitLine (line : String) : extent (splitLine line) ≤ line.length + 1 := by
  have hpieces := Scan.total_pieces Text.isWhite {} line.toList
  have hall : extent ((Scan.pieces Text.isWhite {} line.toList).map String.ofList) =
      line.length + 1 := by
    rw [← String.length_toList, ← hpieces, extent, List.map_map]
    simp [Function.comp_def]
  rw [← hall]
  exact extent_sublist_le (List.filter_sublist.map _)

end Token

/-- The arguments between two parentheses fit there, each with the comma or parenthesis after it. -/
theorem extent_splitArguments (cs : List Char) :
    extent ((Chars.splitArguments cs).map fun arg ↦ String.ofList (Chars.unquote arg)) ≤
      if cs.isEmpty then 0 else cs.length + 1 := by
  have hunquote : ∀ parts : List (List Char),
      extent (parts.map fun arg ↦ String.ofList (Chars.unquote arg)) ≤
        total (parts.map fun p ↦ p.length + 1) := by
    intro parts
    induction parts with
    | nil => exact Nat.le_refl _
    | cons p parts ih =>
      have := Chars.length_unquote_le p
      simp only [List.map_cons, extent_cons, total_cons, String.length_ofList]
      omega
  unfold Chars.splitArguments
  split
  · exact Nat.le_refl _
  · rw [← Scan.total_pieces (· == ',') {} cs]
    exact hunquote _

/-- The arguments of a call are shorter than the call. -/
theorem Call.extent_args {text : String} {call : Call} (h : parse text = .ok call) :
    extent call.args ≤ text.length - 1 := by
  have htrim := Chars.length_trim_le text.toList
  rw [String.length_toList] at htrim
  unfold parse at h
  dsimp only at h
  split at h
  · obtain rfl := Except.ok.inj h
    exact Nat.zero_le _
  · next c rest hrest =>
    split at h
    · next hlast =>
      obtain rfl := Except.ok.inj h
      have hargs := extent_splitArguments rest.dropLast
      -- the closing parenthesis is dropped, which makes room for the comma after the last argument
      have hroom : (if rest.dropLast.isEmpty then 0 else rest.dropLast.length + 1) ≤
        rest.length := by
        cases rest with
        | nil => exact Nat.le_refl _
        | cons d rest =>
          rw [List.length_dropLast]
          split <;> simp
      have hshorter : rest.length + 1 ≤ (Chars.trim text.toList).length := by
        rw [← List.length_cons, ← hrest]
        exact (List.dropWhile_sublist _).length_le
      exact Nat.le_trans hargs (by omega)
    · cases h

/-- A text is not longer without its marker. -/
theorem Call.length_dropMarker_le (text : String) : (dropMarker text).length ≤ text.length := by
  have htrim := Chars.length_trim_le text.toList
  rw [String.length_toList] at htrim
  unfold dropMarker
  split
  · next rest hrest =>
    rw [hrest, List.length_cons] at htrim
    rw [String.length_ofList]
    omega
  · rw [String.length_ofList]
    exact htrim

/-- The operands of a comparison are parts of its text. -/
theorem Comparison.length_split? {text : String} {c : Comparison} (h : split? text = some c) :
    c.left.length ≤ text.length ∧ c.right.length ≤ text.length := by
  have htrim := Chars.length_trim_le text.toList
  rw [String.length_toList] at htrim
  unfold split? at h
  obtain ⟨⟨front, sign, back⟩, hfind, h⟩ := Option.bind_eq_some_iff.1 h
  obtain ⟨hfront, hback⟩ := Scan.length_find? hfind
  have hleft := Chars.length_trim_le front
  have hright := Chars.length_trim_le back
  dsimp only at h hfront hback
  split at h
  · cases h
  · obtain ⟨relation, -, h⟩ := Option.bind_eq_some_iff.1 h
    obtain rfl := Option.some.inj h
    simp only [String.length_ofList]
    omega

end BlockScript
