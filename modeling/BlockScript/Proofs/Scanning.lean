import BlockScript.Proofs.Written
import BlockScript.Script.Arguments

/-!
# Splitters lose nothing

The splitters cut every text, with all its quotes and parentheses closed or not, and what they cut
it into is the text but for the separators. For the arguments of a call this is an identity of the
recursion (`Scan.intercalate_pieces`).

For the tokens of a line the reader is watched character by character (`Scan.marks`): whether it is
inside quotes, and how deep in parentheses. White space separates tokens where it stands at the top
level. There the reader is outside quotes and parentheses, with no escape pending, and the white
space itself makes it forget what stood before; so what follows is read as a text of its own. By
induction over the text each token is taken by itself as it is taken on its line, and each token but
the last one leaves the reader outside (`Scan.exists_isRow`). Only the last one may have a quote or
a parenthesis that nothing closes.

Any selection of such tokens can be joined by spaces and splits into the same tokens again
(`Chars.IsTokenRow.splitLine_intercalate`). In particular a condition, which is put together from
the last tokens of its line, is taken character by character as it stood there (`Token.isFaithful`).
-/

namespace BlockScript

namespace Scan

/-! ### Arguments -/

variable {s : Scan}

theorem exists_pieces_eq_cons (isSeparator : Char → Bool) (s : Scan) (cs : List Char) :
    ∃ p ps, pieces isSeparator s cs = p :: ps := by
  induction cs generalizing s with
  | nil => exact ⟨[], [], rfl⟩
  | cons c cs ih =>
    obtain ⟨p, ps, h⟩ := ih (s.step c)
    rw [pieces]
    split
    · exact ⟨[], _, rfl⟩
    · exact ⟨c :: p, ps, by rw [h, List.modifyHead_cons]⟩

/-- Pieces joined by their separator are the text. -/
theorem intercalate_pieces (c : Char) (s : Scan) (cs : List Char) :
    List.intercalate [c] (pieces (· == c) s cs) = cs := by
  induction cs generalizing s with
  | nil => rfl
  | cons d cs ih =>
    obtain ⟨p, ps, h⟩ := exists_pieces_eq_cons (· == c) (s.step d) cs
    have hrest := ih (s.step d)
    rw [h] at hrest
    rw [pieces, h]
    split
    · next hcut =>
      obtain rfl : d = c := by simpa using (Bool.and_eq_true_iff.1 hcut).1
      rw [List.intercalate_cons_cons, hrest]
      rfl
    · -- the character goes to the first piece, whether it is the only one or not
      rw [List.modifyHead_cons, ← hrest]
      cases ps with
      | nil => rw [List.intercalate_singleton, List.intercalate_singleton]
      | cons q qs => rw [List.intercalate_cons_cons, List.intercalate_cons_cons]; rfl

/-! ### What the reader sees -/

/-- A character of a text, and how the reader takes it. -/
structure Mark where
  /-- The character. -/
  char : Char
  /-- Whether it opens, continues or closes a quoted run. -/
  quoted : Bool
  /-- The number of parentheses that are open outside quotes, once it is read. -/
  depth : Nat
deriving DecidableEq, Repr

/-- White space outside quotes and parentheses, which separates tokens. -/
def Mark.isGap (m : Mark) : Bool :=
  Text.isWhite m.char && (!m.quoted && m.depth == 0)

/-- The characters of a text, and how the reader takes each of them. -/
def marks : Scan → List Char → List Mark
  | _, [] => []
  | s, c :: cs => ⟨c, s.quotes c, (s.step c).depth⟩ :: marks (s.step c) cs

/-- The characters that are left without the gaps. -/
theorem filter_marks_cons (s : Scan) (c : Char) (cs : List Char) :
    (marks s (c :: cs)).filter (!·.isGap) =
      if Text.isWhite c && s.isTop c then (marks (s.step c) cs).filter (!·.isGap)
      else ⟨c, s.quotes c, (s.step c).depth⟩ :: (marks (s.step c) cs).filter (!·.isGap) := by
  have hgap : Mark.isGap ⟨c, s.quotes c, (s.step c).depth⟩ = (Text.isWhite c && s.isTop c) := rfl
  rw [marks, List.filter_cons, hgap]
  cases Text.isWhite c && s.isTop c <;> rfl

theorem map_char_marks (s : Scan) (cs : List Char) : (marks s cs).map Mark.char = cs := by
  induction cs generalizing s with
  | nil => rfl
  | cons c cs ih => rw [marks, List.map_cons, ih]

/-! ### Places to cut -/

/-- Escapes are pending inside quotes only. -/
def IsSettled (s : Scan) : Prop :=
  s.quote = none → s.escaped = false

theorem IsSettled.step (hs : s.IsSettled) (c : Char) : (s.step c).IsSettled := by
  simp only [IsSettled, Scan.step]
  cases hopen : s.quote with
  | none =>
    have hescaped := hs hopen
    split_ifs
    all_goals exact fun _ ↦ hescaped
  | some mark => grind

/-- White space at the top level stands outside quotes and parentheses. -/
theorem IsSettled.isOutside (hs : s.IsSettled) {c : Char} (hc : Text.isWhite c = true)
    (htop : s.isTop c = true) : s.IsOutside := by
  simp only [isTop, quotes, Bool.and_eq_true, Bool.not_eq_true', Bool.or_eq_false_iff,
    beq_iff_eq] at htop
  have hquote : s.quote = none := by simpa using htop.1.1
  have hdepth := htop.2
  rw [step_white hquote hc] at hdepth
  exact ⟨hquote, hs hquote, hdepth⟩

/-! Where a text starts anew, it is taken as a text of its own. -/

theorem IsCalm.marks_eq (hs : s.IsCalm) (hd : s.depth = 0) (cs : List Char) :
    marks s cs = marks {} cs := by
  cases cs with
  | nil => rfl
  | cons c cs => rw [marks, marks, (hs.step_eq hd c).1, (hs.step_eq hd c).2]

theorem IsCalm.passes_iff (hs : s.IsCalm) (hd : s.depth = 0) {want : Char → Bool}
    {cs : List Char} : Passes want s cs ↔ Passes want {} cs := by
  cases cs with
  | nil => rfl
  | cons c cs => rw [Passes, Passes, isTop, isTop, (hs.step_eq hd c).1, (hs.step_eq hd c).2]

theorem IsCalm.isOutside_run (hs : s.IsCalm) (hd : s.depth = 0) {cs : List Char}
    (h : (s.run cs).IsOutside) : (run {} cs).IsOutside := by
  cases cs with
  | nil => exact ⟨rfl, rfl, rfl⟩
  | cons c cs =>
    rw [run, List.foldl_cons, (hs.step_eq hd c).2] at h
    exact h

/-! ### Rows of pieces -/

/-- A text that is read from a state on is cut into a first piece and further ones. -/
structure IsRow (s : Scan) (cs p : List Char) (ps : List (List Char)) : Prop where
  /-- They are what the text is cut into. -/
  pieces : Scan.pieces Text.isWhite s cs = p :: ps
  /-- The first piece is not to be cut. -/
  first : Passes Text.isWhite s p
  /-- Nor is any other, taken by itself. -/
  rest : ∀ q ∈ ps, Passes Text.isWhite {} q
  /-- The reader is outside after the first piece when there are further ones. -/
  outside : ps ≠ [] → (s.run p).IsOutside
  /-- So it is after each further piece but the last one. -/
  chain : ps.Pairwise fun q _ ↦ (run {} q).IsOutside
  /-- Each character is taken in its piece as it is taken in the text. -/
  marks : (Scan.marks s cs).filter (!·.isGap) = Scan.marks s p ++ ps.flatMap (Scan.marks {})

/-- Every text is cut in such a way. -/
theorem exists_isRow (hs : s.IsSettled) (cs : List Char) : ∃ p ps, s.IsRow cs p ps := by
  induction cs generalizing s with
  | nil => exact ⟨[], [], rfl, trivial, nofun, fun h ↦ absurd rfl h, .nil, rfl⟩
  | cons c cs ih =>
    obtain ⟨p, ps, row⟩ := ih (hs.step c)
    by_cases hgap : (Text.isWhite c && s.isTop c) = true
    · -- what follows the gap is a row of its own, now behind an empty piece
      obtain ⟨hwhite, htop⟩ := Bool.and_eq_true_iff.1 hgap
      have hout := hs.isOutside hwhite htop
      obtain ⟨hcalm, hdepth⟩ := hout.after_white hwhite
      refine ⟨[], p :: ps, ?_, trivial, ?_, fun _ ↦ hout, ?_, ?_⟩
      · rw [Scan.pieces, if_pos hgap, row.pieces]
      · exact List.forall_mem_cons.2 ⟨(hcalm.passes_iff hdepth).1 row.first, row.rest⟩
      · refine List.pairwise_cons.2 ⟨fun q hq ↦ ?_, row.chain⟩
        exact hcalm.isOutside_run hdepth (row.outside (List.ne_nil_of_mem hq))
      · rw [filter_marks_cons, if_pos hgap, row.marks, hcalm.marks_eq hdepth]
        rfl
    · -- the character belongs to the first piece, and nothing else changes
      refine ⟨c :: p, ps, ?_, ⟨fun hwhite ↦ ?_, row.first⟩, row.rest, row.outside, row.chain, ?_⟩
      · rw [Scan.pieces, if_neg hgap, row.pieces, List.modifyHead_cons]
      · simpa [hwhite] using hgap
      · rw [filter_marks_cons, if_neg hgap, row.marks]
        rfl

end Scan

/-! ### Tokens of a line -/

namespace Chars

open Scan

/-- A row of texts that can be the tokens of a line. -/
structure IsTokenRow (ts : List (List Char)) : Prop where
  /-- No token is empty. -/
  ne_nil : ∀ t ∈ ts, t ≠ []
  /-- No token is to be cut. -/
  whole : ∀ t ∈ ts, Passes Text.isWhite {} t
  /-- After each token but the last one the reader is outside. -/
  chain : ts.Pairwise fun t _ ↦ (run {} t).IsOutside

theorem isTokenRow_splitLine (cs : List Char) : IsTokenRow (splitLine cs) := by
  obtain ⟨p, ps, row⟩ := exists_isRow (s := {}) (fun _ ↦ rfl) cs
  have hwhole : ∀ q ∈ p :: ps, Passes Text.isWhite {} q :=
    List.forall_mem_cons.2 ⟨row.first, row.rest⟩
  have hchain : (p :: ps).Pairwise fun q _ ↦ (run {} q).IsOutside :=
    List.pairwise_cons.2 ⟨fun q hq ↦ row.outside (List.ne_nil_of_mem hq), row.chain⟩
  rw [splitLine, row.pieces]
  exact ⟨fun t ht ↦ by simpa using (List.mem_filter.1 ht).2,
    fun t ht ↦ hwhole t (List.mem_filter.1 ht).1, hchain.sublist List.filter_sublist⟩

theorem IsTokenRow.sublist {ts us : List (List Char)} (h : IsTokenRow ts) (hsub : us.Sublist ts) :
    IsTokenRow us :=
  ⟨fun t ht ↦ h.ne_nil t (hsub.subset ht), fun t ht ↦ h.whole t (hsub.subset ht),
    h.chain.sublist hsub⟩

/-- Such a row, joined by spaces, is split into its texts. -/
theorem IsTokenRow.splitLine_intercalate {ts : List (List Char)} (h : IsTokenRow ts) :
    splitLine (List.intercalate [' '] ts) = ts := by
  induction ts with
  | nil => rfl
  | cons t ts ih =>
    have hne := h.ne_nil t List.mem_cons_self
    have hwhole := h.whole t List.mem_cons_self
    cases ts with
    | nil =>
      have hpieces := hwhole.pieces []
      simp only [List.append_nil, pieces, List.modifyHead_cons] at hpieces
      rw [List.intercalate_singleton, splitLine, hpieces,
        List.filter_cons_of_pos (by simpa using hne)]
      rfl
    | cons u us =>
      have hout := (List.pairwise_cons.1 h.chain).1 u List.mem_cons_self
      rw [List.intercalate_cons_cons, List.append_assoc, List.singleton_append,
        splitLine_append_of_isOutside hwhole hne hout, ih (h.sublist (List.sublist_cons_self _ _))]

/-- The characters of a line that belong to its tokens, and how the reader takes them there. -/
def body (cs : List Char) : List Mark :=
  (marks {} cs).filter (!·.isGap)

/-- In an empty piece there is nothing to take. -/
theorem flatMap_marks_filter (s : Scan) (ps : List (List Char)) :
    (ps.filter (!·.isEmpty)).flatMap (marks s) = ps.flatMap (marks s) := by
  induction ps with
  | nil => rfl
  | cons p ps ih =>
    cases p with
    | nil => rw [List.filter_cons_of_neg (by simp), ih, List.flatMap_cons, marks, List.nil_append]
    | cons c p => rw [List.filter_cons_of_pos (by simp), List.flatMap_cons, ih, List.flatMap_cons]

/-- The reader takes each token by itself as it takes it on the line. -/
theorem body_eq_flatMap_marks (cs : List Char) : body cs = (splitLine cs).flatMap (marks {}) := by
  obtain ⟨p, ps, row⟩ := exists_isRow (s := {}) (fun _ ↦ rfl) cs
  rw [body, row.marks, splitLine, row.pieces, flatMap_marks_filter, List.flatMap_cons]

/-- So the line is, for the reader, nothing but its tokens. -/
theorem body_eq_flatMap (cs : List Char) : body cs = (splitLine cs).flatMap body := by
  have hself : ∀ t ∈ splitLine cs, marks {} t = body t := by
    intro t ht
    -- a row of one token is split into that token
    have hsplit :=
      ((isTokenRow_splitLine cs).sublist (List.singleton_sublist.2 ht)).splitLine_intercalate
    rw [List.intercalate_singleton] at hsplit
    rw [body_eq_flatMap_marks, hsplit, List.flatMap_singleton]
  rw [body_eq_flatMap_marks, List.flatMap_def, List.flatMap_def, List.map_congr_left hself]

/-- The characters of the tokens are those of the line without its gaps. -/
theorem flatten_splitLine (cs : List Char) : (splitLine cs).flatten = (body cs).map Mark.char := by
  have hchars : (splitLine cs).map (fun t ↦ (marks {} t).map Mark.char) = splitLine cs := by
    simp [map_char_marks]
  rw [body_eq_flatMap_marks, List.map_flatMap, List.flatMap_def, hchars]

/-- Arguments joined by commas are the text between the parentheses. -/
theorem intercalate_splitArguments {cs : List Char} (h : cs ≠ []) :
    List.intercalate [','] (splitArguments cs) = cs := by
  rw [splitArguments, if_neg (by simpa using h), intercalate_pieces]

end Chars

namespace Token

open Scan

/-- The characters of a line that belong to its tokens, and how the reader takes them there. -/
def body (line : String) : List Mark :=
  Chars.body line.toList

/-- Tokens that a line was split into, or some of them, are the tokens of the line that is made of
them, and are taken there as they were. -/
theorem splitLine_join_of_sublist {t : String} {ws : List String} (h : ws.Sublist (splitLine t)) :
    splitLine (Text.join " " ws) = ws ∧ body (Text.join " " ws) = ws.flatMap body := by
  have hsub : (ws.map String.toList).Sublist (Chars.splitLine t.toList) := by
    simpa [splitLine, Function.comp_def] using h.map String.toList
  have hsplit := ((Chars.isTokenRow_splitLine t.toList).sublist hsub).splitLine_intercalate
  constructor
  · rw [splitLine, Text.toList_join, hsplit, List.map_map]
    simp [Function.comp_def]
  · rw [body, Text.toList_join, Chars.body_eq_flatMap, hsplit, List.flatMap_map]
    rfl

theorem body_eq_flatMap (t : String) : body t = (splitLine t).flatMap body := by
  rw [body, Chars.body_eq_flatMap, splitLine, List.flatMap_map]
  simp [body]

/-- What the splitters make of a text holds all that was in it. -/
structure IsFaithful (t : String) : Prop where
  /-- Joined by commas, the arguments are the text they were cut out of. -/
  arguments : t ≠ "" → Text.join "," (splitArguments t) = t
  /-- One after the other, the tokens are the line without its white space outside quotes and
  parentheses. -/
  characters : String.join (splitLine t) = String.ofList ((body t).map Mark.char)
  /-- No token is empty. -/
  ne_empty : ∀ w ∈ splitLine t, w ≠ ""
  /-- Joined by single spaces, the tokens are split into the same tokens. -/
  rejoined : splitLine (Text.join " " (splitLine t)) = splitLine t
  /-- So are some of them, and the reader takes each as it was taken on the line. -/
  selected : body t = (splitLine t).flatMap body ∧ ∀ ws, ws.Sublist (splitLine t) →
    splitLine (Text.join " " ws) = ws ∧ body (Text.join " " ws) = ws.flatMap body
  /-- The text of a condition is split into the tokens that it was put together from, and its
  characters are taken as they are at the end of the line. -/
  condition : ∀ first raw tokens source i, splitLine t = first :: raw → source.position? = some i →
    splitLine ((Arguments.ofLine tokens raw).readCondition source) = raw.drop i ∧
      body t = (first :: raw.take i).flatMap body ++
        body ((Arguments.ofLine tokens raw).readCondition source)

/-- **Splitting loses nothing, and what is split can be joined and split again.** This holds of
every text, whether its quotes and parentheses are closed or not. -/
theorem isFaithful (t : String) : IsFaithful t where
  arguments h := by
    have hne : t.toList ≠ [] := by simpa using h
    have hlist := Chars.intercalate_splitArguments hne
    rw [← String.toList_inj, Text.join, String.toList_intercalate, splitArguments, List.map_map]
    simpa [Function.comp_def] using hlist
  characters := by
    rw [← String.toList_inj, String.toList_ofList, body, ← Chars.flatten_splitLine, splitLine]
    simp [List.flatMap_map]
  ne_empty w hw := by
    obtain ⟨cs, hcs, rfl⟩ := List.mem_map.1 hw
    simpa using (Chars.isTokenRow_splitLine t.toList).ne_nil cs hcs
  rejoined := (splitLine_join_of_sublist (List.Sublist.refl _)).1
  selected := ⟨body_eq_flatMap t, fun _ ↦ splitLine_join_of_sublist⟩
  condition first raw tokens source i hsplit hsource := by
    have hread : (Arguments.ofLine tokens raw).readCondition source =
        Text.join " " (raw.drop i) := by
      simp [Arguments.readCondition, hsource]
    have hsub : (raw.drop i).Sublist (splitLine t) :=
      hsplit ▸ (List.drop_sublist i raw).trans (List.sublist_cons_self first raw)
    obtain ⟨hjoin, hbody⟩ := splitLine_join_of_sublist hsub
    rw [hread]
    refine ⟨hjoin, ?_⟩
    calc body t = (first :: raw).flatMap body := by rw [body_eq_flatMap, hsplit]
      _ = (first :: (raw.take i ++ raw.drop i)).flatMap body := by rw [List.take_append_drop]
      _ = (first :: raw.take i).flatMap body ++ (raw.drop i).flatMap body := by
        rw [← List.cons_append, List.flatMap_append]
      _ = _ := by rw [hbody]

/-- A backslash in front of the white space, a parenthesis too many, and a quote that is never
closed. -/
example : splitLine "if a\\  \"(\" = )b   'c  \\' d" =
    ["if", "a\\", "\"(\"", "=", ")b", "'c  \\' d"] := by
  decide

end Token

end BlockScript
