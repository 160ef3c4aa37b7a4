import BlockScript.Proofs.Header

/-!
# Reading sections

A text is cut into lines, and these are read one by one. Lines that were joined are the lines of the
text again (`Outline.texts_sourceLines`). What a reader does with some lines is said without their
numbers (`Outline.Reader.Reads`): inside a section it takes every line that is indented
(`Outline.Reader.reads_inside`), and between sections it takes those that are no headers to the
active sprite (`Outline.Reader.reads_loose`).
-/

namespace BlockScript

/-! ### Lines of a text -/

namespace Chars

/-- A character that ends no line goes to the line. -/
theorem linesFrom_cons {c : Char} (h : c ≠ '\n') (line cs : List Char) :
    linesFrom line (c :: cs) = linesFrom (c :: line) cs := by
  cases line <;> simp [linesFrom, h]

/-- A line feed ends the line, and the next one starts empty. -/
theorem linesFrom_newline (line cs : List Char) :
    linesFrom line ('\n' :: cs) = dropReturn line.reverse :: linesFrom [] cs := by
  cases line with
  | nil => rfl
  | cons d ds =>
    have hlast : (d :: ds).reverse.getLast? = some d := by simp
    by_cases hd : d = '\r'
    · simp [linesFrom, dropReturn, hd]
    · simp [linesFrom, dropReturn, hd]

/-- A line goes on until a line feed. -/
theorem linesFrom_append {cs : List Char} (h : '\n' ∉ cs) (line rest : List Char) :
    linesFrom line (cs ++ rest) = linesFrom (cs.reverse ++ line) rest := by
  induction cs generalizing line with
  | nil => rfl
  | cons c cs ih =>
    rw [List.mem_cons, not_or] at h
    rw [List.cons_append, linesFrom_cons (Ne.symm h.1), ih h.2]
    simp

/-- A line without a carriage return at its end stays as it is. -/
theorem dropReturn_eq_self {cs : List Char} (h : cs.getLast? ≠ some '\r') : dropReturn cs = cs := by
  rw [dropReturn, if_neg h]

/-- A line without its carriage return has no other characters. -/
theorem mem_of_mem_dropReturn {c : Char} {cs : List Char} (h : c ∈ dropReturn cs) : c ∈ cs := by
  unfold dropReturn at h
  split at h
  · exact (List.dropLast_sublist _).subset h
  · exact h

/-- Tidy lines that are joined are the lines of the text. -/
theorem lines_intercalate : ∀ {css : List (List Char)},
    (∀ cs ∈ css, '\n' ∉ cs ∧ cs.getLast? ≠ some '\r') → (∀ cs ∈ css.getLast?, cs ≠ []) →
    lines (List.intercalate ['\n'] css) = css
  | [], _, _ => rfl
  | [cs], h, hlast => by
    have hne := hlast cs rfl
    rw [List.intercalate_singleton, lines, ← List.append_nil cs,
      linesFrom_append (h cs List.mem_cons_self).1, List.append_nil, linesFrom]
    simp [hne]
  | cs :: next :: css, h, hlast => by
    obtain ⟨hcs, hrest⟩ := List.forall_mem_cons.1 h
    have ih := lines_intercalate hrest (by simpa using hlast)
    rw [List.intercalate_cons_cons, lines, List.append_assoc, List.singleton_append,
      linesFrom_append hcs.1, linesFrom_newline, List.append_nil, List.reverse_reverse,
      dropReturn_eq_self hcs.2]
    exact congrArg (cs :: ·) ih

/-- No line holds a line feed. -/
theorem notMem_of_mem_linesFrom {line cs piece : List Char} (hline : '\n' ∉ line)
    (h : piece ∈ linesFrom line cs) : '\n' ∉ piece := by
  induction cs generalizing line with
  | nil =>
    rw [linesFrom] at h
    split at h
    · exact absurd h List.not_mem_nil
    · obtain rfl := List.mem_singleton.1 h
      simpa using hline
  | cons c cs ih =>
    by_cases hc : c = '\n'
    · rw [hc, linesFrom_newline] at h
      rcases List.mem_cons.1 h with rfl | h
      · exact fun hmem ↦ hline (List.mem_reverse.1 (mem_of_mem_dropReturn hmem))
      · exact ih List.not_mem_nil h
    · rw [linesFrom_cons hc] at h
      refine ih ?_ h
      rw [List.mem_cons, not_or]
      exact ⟨Ne.symm hc, hline⟩

end Chars

namespace Outline

/-- The lines of a text hold no line feed. -/
theorem isInline_of_mem_sourceLines {text : String} {source : SourceLine}
    (h : source ∈ sourceLines text) : Text.IsInline source.text := by
  obtain ⟨⟨cs, i⟩, hmem, rfl⟩ := List.mem_map.1 h
  have hcs : cs ∈ Chars.lines text.toList := List.fst_mem_of_mem_zipIdx hmem
  have hinline := Chars.notMem_of_mem_linesFrom List.not_mem_nil hcs
  rw [Text.IsInline, String.toList_ofList]
  exact fun h ↦ hinline (Chars.mem_of_mem_dropReturn h)

/-- The lines of joined lines. -/
theorem texts_sourceLines {lines : List String} (h : ∀ line ∈ lines, Text.IsTidy line)
    (hlast : ∀ line ∈ lines.getLast?, line ≠ "") :
    (sourceLines (Text.join "\n" lines)).map SourceLine.text = lines := by
  have hchars : Chars.lines (Text.join "\n" lines).toList = lines.map String.toList := by
    rw [Text.join, String.toList_intercalate]
    refine Chars.lines_intercalate (fun cs hcs ↦ ?_) fun cs hcs ↦ ?_
    · obtain ⟨line, hline, rfl⟩ := List.mem_map.1 hcs
      exact ⟨(h line hline).inline, (h line hline).last⟩
    · rw [List.getLast?_map] at hcs
      obtain ⟨line, hline, rfl⟩ := Option.map_eq_some_iff.1 hcs
      simpa using hlast line hline
  have htext : ∀ line ∈ lines, String.ofList (Chars.dropReturn line.toList) = line := by
    intro line hline
    rw [Chars.dropReturn_eq_self (h line hline).last, String.ofList_toList]
  calc (sourceLines (Text.join "\n" lines)).map SourceLine.text
      = (lines.map String.toList).map fun cs ↦ String.ofList (Chars.dropReturn cs) := by
        rw [sourceLines, hchars, List.map_map]
        conv_rhs => rw [← List.zipIdx_map_fst 0 (lines.map String.toList), List.map_map]
        rfl
    _ = lines := by
        rw [List.map_map]
        exact (List.map_congr_left htext).trans (List.map_id lines)

/-! ### Reading line by line -/

/-- Whether a line between sections is passed over. -/
def isIdle (text : String) : Bool :=
  (Chars.trim text.toList).isEmpty || (Chars.trim text.toList).head? == some '#'

namespace Reader

variable {r : Reader} {source : SourceLine} {opened : OpenSection}

/-- A blank line or a comment between sections is skipped. -/
theorem step_idle (hr : r.open? = none) (h : isIdle source.text = true) :
    r.step source = .ok r := by
  unfold isIdle at h
  simp only [step, hr, h, if_true]

/-- A header between sections is followed. -/
theorem step_header (hr : r.open? = none) (h : isIdle source.text = false) {header : Header}
    (hheader : Header.parse? (Chars.trim source.text.toList) = some header) :
    r.step source = .ok (r.follow source.line (Token.indentWidth source.text) header) := by
  unfold isIdle at h
  simp only [step, hr, h, hheader]
  rfl

/-- Any other line between sections goes to the active sprite. -/
theorem step_loose (hr : r.open? = none) (h : isIdle source.text = false)
    (hheader : Header.parse? (Chars.trim source.text.toList) = none) :
    r.step source = .ok (r.addLine (.sprite r.active) source) := by
  unfold isIdle at h
  simp only [step, hr, h, hheader]
  rfl

/-- Inside a section, a line that is indented belongs to it, and so does an empty one. -/
theorem step_inside (hr : r.open? = some opened)
    (h : source.text = "" ∨ opened.indent < Token.indentWidth source.text) :
    r.step source = .ok (r.addLine opened.owner source) := by
  rcases h with h | h
  · simp [step, hr, h, Chars.trim, Chars.trimStart, Chars.trimEnd]
  · have hnot : ¬Token.indentWidth source.text ≤ opened.indent := Nat.not_le.2 h
    simp [step, hr, hnot]

/-- An end closes the section. -/
theorem step_end (hr : r.open? = some opened) (h : source.text = "end") :
    r.step source = .ok { r with open? := none } := by
  have htrim : Chars.trim "end".toList = "end".toList := by decide
  have hindent : Token.indentWidth "end" = 0 := by decide
  simp only [step, hr, h, htrim, hindent]
  simp

/-! ### Readings

What is said of a reading holds however the lines are numbered. -/

/-- The reader takes the lines and ends as stated. -/
def Reads (texts : List String) (post : Reader → Prop) (r : Reader) : Prop :=
  ∀ lines : List SourceLine, lines.map SourceLine.text = texts →
    ∃ r', lines.foldlM step r = .ok r' ∧ post r'

section

variable {texts more : List String} {post mid : Reader → Prop}

/-- Reading no texts changes nothing. -/
theorem Reads.nil (h : post r) : Reads [] post r := by
  intro lines hlines
  obtain rfl := List.map_eq_nil_iff.1 hlines
  exact ⟨r, rfl, h⟩

/-- Texts that are read one after the other are read together. -/
theorem Reads.append (h : Reads texts mid r) (hmore : ∀ r', mid r' → Reads more post r') :
    Reads (texts ++ more) post r := by
  intro lines hlines
  obtain ⟨front, back, rfl, hfront, hback⟩ := List.map_eq_append_iff.1 hlines
  obtain ⟨r', hr', hmid⟩ := h front hfront
  obtain ⟨r'', hr'', hpost⟩ := hmore r' hmid back hback
  refine ⟨r'', ?_, hpost⟩
  rw [List.foldlM_append, hr']
  exact hr''

/-- The first text leads to where the others are read. -/
theorem Reads.cons {text : String}
    (h : ∀ line : SourceLine, line.text = text → ∃ r', r.step line = .ok r' ∧ Reads more post r') :
    Reads (text :: more) post r := by
  intro lines hlines
  obtain ⟨line, back, rfl, hline, hback⟩ := List.map_eq_cons_iff.1 hlines
  obtain ⟨r', hr', hmore⟩ := h line hline
  obtain ⟨r'', hr'', hpost⟩ := hmore back hback
  refine ⟨r'', ?_, hpost⟩
  rw [List.foldlM_cons, hr']
  exact hr''

/-- A blank line or a comment makes no difference between sections. -/
theorem Reads.idle {text : String} (hr : r.open? = none) (htext : isIdle text = true)
    (hmore : Reads more post r) : Reads (text :: more) post r :=
  .cons fun _ hline ↦ ⟨r, step_idle hr (hline ▸ htext), hmore⟩

end

/-- The reader after some lines of one owner. -/
def addLines (r : Reader) (owner : Owner) (lines : List SourceLine) : Reader :=
  lines.foldl (fun r line ↦ r.addLine owner line) r

/-- An added line opens and closes nothing. -/
theorem open?_addLine (r : Reader) (owner : Owner) (line : SourceLine) :
    (r.addLine owner line).open? = r.open? := by
  cases owner <;> rfl

/-- An added line leaves the active sprite as it is. -/
theorem active_addLine (r : Reader) (owner : Owner) (line : SourceLine) :
    (r.addLine owner line).active = r.active := by
  cases owner <;> rfl

/-- The lines of a section are read to its owner. -/
theorem reads_inside (hr : r.open? = some opened) {texts : List String}
    (h : ∀ text ∈ texts, text = "" ∨ opened.indent < Token.indentWidth text) :
    Reads texts (fun r' ↦ ∃ lines, lines.map SourceLine.text = texts ∧
      r' = r.addLines opened.owner lines) r := by
  rintro lines rfl
  refine ⟨r.addLines opened.owner lines, ?_, lines, rfl, rfl⟩
  induction lines generalizing r with
  | nil => rfl
  | cons line lines ih =>
    obtain ⟨hline, hlines⟩ := List.forall_mem_cons.1 h
    rw [List.foldlM_cons, step_inside hr hline]
    exact ih ((open?_addLine r opened.owner line).trans hr) hlines

/-- Between sections, lines that are no headers are read to the active sprite, idle ones aside. -/
theorem reads_loose (hr : r.open? = none) {texts : List String}
    (h : ∀ text ∈ texts, isIdle text = true ∨ Header.parse? (Chars.trim text.toList) = none) :
    Reads texts (fun r' ↦ ∃ lines, lines.map SourceLine.text = texts.filter (!isIdle ·) ∧
      r' = r.addLines (.sprite r.active) lines) r := by
  rintro lines rfl
  refine ⟨r.addLines (.sprite r.active) (lines.filter fun line ↦ !isIdle line.text), ?_, _, ?_, rfl⟩
  · induction lines generalizing r with
    | nil => rfl
    | cons line lines ih =>
      obtain ⟨hline, hlines⟩ := List.forall_mem_cons.1 h
      by_cases hidle : isIdle line.text = true
      · rw [List.foldlM_cons, step_idle hr hidle, List.filter_cons_of_neg (by simp [hidle])]
        exact ih hr hlines
      · rw [Bool.not_eq_true] at hidle
        have hheader := hline.resolve_left (by simp [hidle])
        rw [List.foldlM_cons, step_loose hr hidle hheader,
          List.filter_cons_of_pos (by simp [hidle])]
        have hopen := (open?_addLine r (.sprite r.active) line).trans hr
        have hrest := ih hopen hlines
        rw [active_addLine] at hrest
        exact hrest
  · rw [List.filter_map]
    rfl

/-- Lines of the stage go to the end of its lines. -/
theorem addLines_stage (r : Reader) (lines : List SourceLine) :
    r.addLines .stage lines = { r with stage := r.stage ++ lines } := by
  induction lines generalizing r with
  | nil => simp [addLines]
  | cons line lines ih =>
    show (r.addLine .stage line).addLines .stage lines = _
    rw [ih]
    simp [addLine]

/-- A change at the position behind a front changes the last item. -/
theorem modify_last {α : Type} (front : List α) (last : α) (f : α → α) :
    (front ++ [last]).modify front.length f = front ++ [f last] := by
  induction front with
  | nil => rfl
  | cons a front ih => exact congrArg (a :: ·) ih

/-- Lines are added to the last one of the sprites. -/
theorem addLines_last (stage : List SourceLine) (front : List SpriteSection) (cur : SpriteSection)
    (active : Nat) (open? : Option OpenSection) (lines : List SourceLine) :
    Reader.addLines ⟨stage, front ++ [cur], active, open?⟩ (.sprite front.length) lines =
      ⟨stage, front ++ [{ cur with lines := cur.lines ++ lines }], active, open?⟩ := by
  induction lines generalizing cur with
  | nil => simp [addLines]
  | cons line lines ih =>
    have hadd : Reader.addLine ⟨stage, front ++ [cur], active, open?⟩ (.sprite front.length) line =
        ⟨stage, front ++ [{ cur with lines := cur.lines ++ [line] }], active, open?⟩ := by
      simp only [addLine, modify_last]
    show (Reader.addLine _ _ line).addLines (.sprite front.length) lines = _
    rw [hadd, ih]
    simp

/-! ### Mentions -/

section

variable {name : String} (hname : Text.isProper name = true)
include hname

/-- A sprite that is not there yet becomes the last one. -/
theorem mention_new (h : ∀ s ∈ r.sprites, Text.lower s.name ≠ Text.lower name) :
    r.mention name =
      ({ r with sprites := r.sprites ++ [⟨name, none, [], true⟩] }, name, r.sprites.length) := by
  have hposition : r.position? name = none := by
    rw [position?, List.findIdx?_eq_none_iff]
    intro s hs
    simpa using h s hs
  simp only [mention, Text.nameOr_of_isProper hname, hposition]

/-- Mentioning the last sprite as before changes nothing. -/
theorem mention_last {stage : List SourceLine} {front : List SpriteSection}
    (h : ∀ s ∈ front, Text.lower s.name ≠ Text.lower name) (costume : Option String)
    (lines : List SourceLine) (active : Nat) (open? : Option OpenSection) :
    mention ⟨stage, front ++ [⟨name, costume, lines, true⟩], active, open?⟩ name =
      (⟨stage, front ++ [⟨name, costume, lines, true⟩], active, open?⟩, name, front.length) := by
  have hposition : position? ⟨stage, front ++ [⟨name, costume, lines, true⟩], active, open?⟩ name =
      some front.length := by
    have hfront : front.findIdx? (fun s ↦ Text.lower s.name == Text.lower name) = none := by
      rw [List.findIdx?_eq_none_iff]
      intro s hs
      simpa using h s hs
    rw [position?, List.findIdx?_append, hfront]
    simp
  simp only [mention, Text.nameOr_of_isProper hname, hposition, modify_last]

/-- The default sprite takes the spelling of its first mention. -/
theorem mention_default (h : Text.lower Header.defaultSprite = Text.lower name)
    (stage : List SourceLine) :
    mention { stage } name = ({ stage, sprites := [⟨name, none, [], true⟩] }, name, 0) := by
  have hposition : position? { stage } name = some 0 := by
    simp [position?, h]
  simp only [mention, Text.nameOr_of_isProper hname, hposition]
  rfl

end

end Reader

end Outline

end BlockScript
