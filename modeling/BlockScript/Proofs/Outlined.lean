import BlockScript.Proofs.Independence
import BlockScript.Proofs.Sections
import BlockScript.Proofs.Tour

/-!
# The outline of a listing

The listing of a program is cut into sections again: one for each sprite, with its name, its costume
and its lines, and the one of the stage (`Listing.outline_ofProgram`), if the names of the sprites
can be read back (`Header.IsSafe`). What else a program needs for that it has from its own source
text: names that differ, and the name of the default sprite at most for the first one
(`Outline.Reader.IsSound`).
-/

namespace BlockScript

/-! ### Sections of any text -/

theorem Text.isBlank_of_isProper {s : String} (h : Text.isProper s = true) :
    Text.isBlank s = false := by
  obtain ⟨htrim, hne⟩ := Text.isProper_iff.1 h
  obtain ⟨c, rest, hcons⟩ := List.exists_cons_of_ne_nil (by simpa using hne : s.toList ≠ [])
  have hwhite : ∀ d ∈ s.toList.head?, Text.isWhite d = false := by
    rw [← htrim]
    exact Chars.head?_trim s.toList
  rw [Text.isBlank, hcons, List.all_cons, hwhite c (by rw [hcons]; rfl)]
  rfl

theorem Text.isProper_trim {s : String} (h : ¬Text.isBlank s = true) :
    Text.isProper (Text.trim s) = true := by
  obtain ⟨c, hc, hwhite⟩ : ∃ c ∈ s.toList, Text.isWhite c = false := by
    simpa [Text.isBlank] using h
  have hmem : c ∈ (Text.trim s).toList := by
    rw [Text.trim, String.toList_ofList]
    exact Chars.mem_trimEnd (Chars.mem_trimStart hc hwhite) hwhite
  refine Text.isProper_iff.2 ⟨by simp [Text.trim], fun hempty ↦ ?_⟩
  rw [hempty] at hmem
  exact absurd hmem List.not_mem_nil

/-- The texts of a header stay on one line. -/
def Header.IsInline : Header → Prop
  | .stageCode => True
  | .spriteName name | .costume name | .spriteCode name => Text.IsInline name

namespace Header

variable {cs rest : List Char}

theorem mem_of_afterAssignment? {word : String} (h : afterAssignment? word cs = some rest)
    {c : Char} (hc : c ∈ rest) : c ∈ cs := by
  obtain ⟨after, -, htrim, rfl⟩ := afterAssignment?_eq_some h
  have hmem : c ∈ Chars.trimStart (cs.drop word.toList.length) := by
    rw [htrim]
    exact List.mem_cons_of_mem _ ((List.dropWhile_sublist _).subset hc)
  exact (List.drop_sublist _ _).subset ((List.dropWhile_sublist _).subset hmem)

theorem mem_of_sectionName? {name : List Char} (h : sectionName? cs = some name) {c : Char}
    (hc : c ∈ name) : c ∈ cs := by
  unfold sectionName? at h
  split at h
  · cases h
  · next d rest =>
    dsimp only at h
    split at h
    · obtain rfl := Option.some.inj h
      exact List.mem_cons_of_mem _ ((List.dropLast_sublist _).subset hc)
    · split at h
      · obtain rfl := Option.some.inj h
        exact hc
      · cases h

/-- The name or the source in a header is a part of its line. -/
theorem isInline_of_parse? {header : Header} (h : parse? cs = some header) (hcs : '\n' ∉ cs) :
    header.IsInline := by
  have hvalue : ∀ {word : String} {value : List Char},
      (afterAssignment? word cs).filter (!·.isEmpty) = some value →
      Text.IsInline (String.ofList (Chars.unquote value)) := by
    intro word value hfilter
    obtain ⟨hafter, -⟩ := Option.filter_eq_some_iff.1 hfilter
    rw [Text.IsInline, String.toList_ofList]
    exact fun hmem ↦ hcs (mem_of_afterAssignment? hafter (Chars.mem_of_mem_unquote hmem))
  unfold parse? at h
  split at h
  · obtain rfl := Option.some.inj h
    trivial
  · split at h
    · next value hsprite =>
      obtain rfl := Option.some.inj h
      exact hvalue hsprite
    · split at h
      · next value hcostume =>
        obtain rfl := Option.some.inj h
        exact hvalue hcostume
      · obtain ⟨name, hname, rfl⟩ := Option.map_eq_some_iff.1 h
        obtain ⟨front, code, white, rfl, -, -, hfront⟩ := exists_of_spriteSection? hname
        show '\n' ∉ (String.ofList name).toList
        rw [String.toList_ofList]
        intro hmem
        exact hcs (List.mem_append_left _ (List.mem_append_left _
          (mem_of_sectionName? hfront hmem)))

end Header

/-- The name and the costume are trimmed, and all texts stay on one line. -/
structure SpriteSection.IsSound (s : SpriteSection) : Prop where
  name : Text.isProper s.name = true ∧ Text.IsInline s.name
  costume : ∀ source ∈ s.costume, Text.isProper source = true ∧ Text.IsInline source
  lines : ∀ line ∈ s.lines, Text.IsInline line.text

namespace Outline

/-- What sprites are told apart by. -/
def keys (sprites : List SpriteSection) : List String :=
  sprites.map fun s ↦ Text.lower s.name

/-- A change at one place is not seen by a view that the changed part keeps. -/
theorem map_modify_eq_map {α β : Type} {xs : List α} {i : Nat} {f : α → α} {view : α → β}
    (h : ∀ x, xs[i]? = some x → view (f x) = view x) : (xs.modify i f).map view = xs.map view := by
  refine List.ext_getElem? fun j ↦ ?_
  simp only [List.getElem?_map, List.getElem?_modify]
  by_cases hij : i = j
  · subst hij
    cases hx : xs[i]? with
    | none => rfl
    | some x => simp [h x hx]
  · simp [hij]

theorem keys_append_singleton (sprites : List SpriteSection) (s : SpriteSection) :
    keys (sprites ++ [s]) = keys sprites ++ [Text.lower s.name] := by
  simp [keys]

theorem lower_name_of_keys {sprites : List SpriteSection} {i : Nat} {key : String}
    (h : (keys sprites)[i]? = some key) {s : SpriteSection} (hs : sprites[i]? = some s) :
    Text.lower s.name = key := by
  rw [keys, List.getElem?_map, hs] at h
  exact Option.some.inj h

/-- A new spelling of a name does not change the key of its section. -/
theorem keys_rename {sprites : List SpriteSection} {i : Nat} {name : String}
    (h : (keys sprites)[i]? = some (Text.lower name)) :
    keys (sprites.modify i fun s ↦ { s with name, mentioned := true }) = keys sprites :=
  map_modify_eq_map fun _ hs ↦ (lower_name_of_keys h hs).symm

namespace Reader

/-- A mention finds the section with the key of the name and gives it this spelling, or adds a
section where no sprite has that key. -/
theorem mention_cases (r : Reader) (name : String) :
    (∃ i, (keys r.sprites)[i]? = some (Text.lower (Text.nameOr name Header.defaultSprite)) ∧
      r.mention name = ({ r with sprites := r.sprites.modify i fun s ↦
          { s with name := Text.nameOr name Header.defaultSprite, mentioned := true } },
        Text.nameOr name Header.defaultSprite, i)) ∨
    Text.lower (Text.nameOr name Header.defaultSprite) ∉ keys r.sprites ∧
      r.mention name = ({ r with sprites := r.sprites ++
          [{ name := Text.nameOr name Header.defaultSprite, mentioned := true }] },
        Text.nameOr name Header.defaultSprite, r.sprites.length) := by
  unfold mention
  dsimp only
  generalize Text.nameOr name Header.defaultSprite = final
  cases hposition : r.position? final with
  | some i =>
    obtain ⟨hlt, hmatch, -⟩ := List.findIdx?_eq_some_iff_getElem.1 hposition
    refine .inl ⟨i, ?_, rfl⟩
    rw [keys, List.getElem?_map, List.getElem?_eq_getElem hlt]
    exact congrArg some (eq_of_beq hmatch)
  | none =>
    refine .inr ⟨fun hmem ↦ ?_, rfl⟩
    obtain ⟨s, hs, hkey⟩ := List.mem_map.1 hmem
    have hne := List.findIdx?_eq_none_iff.1 hposition s hs
    exact absurd (beq_iff_eq.2 hkey) (Bool.eq_false_iff.1 hne)

/-- The sections are sound, no two of them are for one sprite, and the first one is that of the
default sprite. -/
structure IsSound (r : Reader) : Prop where
  stage : ∀ line ∈ r.stage, Text.IsInline line.text
  sprites : ∀ s ∈ r.sprites, s.IsSound
  nodup : (keys r.sprites).Nodup
  head : (keys r.sprites).head? = some (Text.lower Header.defaultSprite)

variable {r : Reader}

theorem isSound_start : IsSound {} where
  stage := List.forall_mem_nil _
  sprites := List.forall_mem_singleton.2
    ⟨⟨by decide, by decide⟩, nofun, List.forall_mem_nil _⟩
  nodup := List.nodup_singleton _
  head := rfl

/-- A section may be changed if it keeps its name, the case of its letters aside. -/
theorem IsSound.modify (h : r.IsSound) {i : Nat} {f : SpriteSection → SpriteSection}
    (hkey : ∀ s, r.sprites[i]? = some s → Text.lower (f s).name = Text.lower s.name)
    (hsound : ∀ s, s.IsSound → (f s).IsSound) (active : Nat) (open? : Option OpenSection) :
    IsSound ⟨r.stage, r.sprites.modify i f, active, open?⟩ := by
  have hkeys : keys (r.sprites.modify i f) = keys r.sprites := map_modify_eq_map hkey
  refine ⟨h.stage, fun s hs ↦ ?_, ?_, ?_⟩
  · obtain ⟨j, hj⟩ := List.mem_iff_getElem?.1 hs
    rw [List.getElem?_modify] at hj
    obtain ⟨t, ht, rfl⟩ := Option.map_eq_some_iff.1 hj
    have hsound' := h.sprites t (List.mem_of_getElem? ht)
    split
    · exact hsound t hsound'
    · exact hsound'
  · show (keys (r.sprites.modify i f)).Nodup
    rw [hkeys]
    exact h.nodup
  · show (keys (r.sprites.modify i f)).head? = _
    rw [hkeys]
    exact h.head

theorem IsSound.addLine (h : r.IsSound) (owner : Owner) {line : SourceLine}
    (hline : Text.IsInline line.text) : (r.addLine owner line).IsSound := by
  have happend : ∀ {lines : List SourceLine}, (∀ l ∈ lines, Text.IsInline l.text) →
      ∀ l ∈ lines ++ [line], Text.IsInline l.text := fun hlines ↦
    List.forall_mem_append.2 ⟨hlines, List.forall_mem_singleton.2 hline⟩
  cases owner with
  | stage => exact { h with stage := happend h.stage }
  | sprite i =>
    exact h.modify (f := fun sprite ↦ { sprite with lines := sprite.lines ++ [line] })
      (fun _ _ ↦ rfl) (fun s hs ↦ ⟨hs.name, hs.costume, happend hs.lines⟩) _ _

theorem IsSound.mention (h : r.IsSound) {name : String} (hname : Text.IsInline name) :
    (r.mention name).1.IsSound := by
  have hproper := Text.isProper_nameOr name (by decide : Text.isProper Header.defaultSprite = true)
  have hinline := (Text.isTidy_nameOr hname (by decide : Text.IsTidy Header.defaultSprite)).inline
  have hcases := r.mention_cases name
  generalize Text.nameOr name Header.defaultSprite = final at hproper hinline hcases
  rcases hcases with ⟨i, hkey, heq⟩ | ⟨hnew, heq⟩ <;> rw [heq] <;> dsimp only
  · refine h.modify (f := fun s ↦ { s with name := final, mentioned := true }) (fun s hs ↦ ?_)
      (fun s hs ↦ ⟨⟨hproper, hinline⟩, hs.costume, hs.lines⟩) _ _
    exact (lower_name_of_keys hkey hs).symm
  · refine ⟨h.stage, List.forall_mem_append.2 ⟨h.sprites, List.forall_mem_singleton.2 ?_⟩, ?_, ?_⟩
    · exact ⟨⟨hproper, hinline⟩, nofun, List.forall_mem_nil _⟩
    · show (keys (r.sprites ++ [_])).Nodup
      rw [keys_append_singleton]
      exact List.nodup_append.2 ⟨h.nodup, List.nodup_singleton _, fun a ha b hb ↦ by
        rw [List.mem_singleton.1 hb]
        rintro rfl
        exact hnew ha⟩
    · show (keys (r.sprites ++ [_])).head? = _
      rw [keys_append_singleton, List.head?_append, h.head]
      rfl

theorem IsSound.follow (h : r.IsSound) {header : Header} (hheader : header.IsInline)
    (line indent : Nat) : (r.follow line indent header).IsSound := by
  cases header with
  | stageCode => exact { h with }
  | spriteName name => exact { h.mention hheader with }
  | costume source =>
    refine h.modify (f := fun sprite ↦ { sprite with
        costume := if Text.isBlank source then none else some (Text.trim source),
        mentioned := true })
      (fun _ _ ↦ rfl) (fun s hs ↦ ⟨hs.name, fun t ht ↦ ?_, hs.lines⟩) _ _
    dsimp only at ht
    split at ht
    · cases ht
    · next hblank =>
      obtain rfl := Option.some.inj ht
      exact ⟨Text.isProper_trim hblank, (hheader : Text.IsInline source).trim⟩
  | spriteCode name => exact { h.mention hheader with }

theorem IsSound.step (h : r.IsSound) {line : SourceLine} (hline : Text.IsInline line.text)
    {r' : Reader} (hstep : r.step line = .ok r') : r'.IsSound := by
  unfold Reader.step at hstep
  dsimp only at hstep
  split at hstep
  · -- between sections a line is idle, a header, or code of the active sprite
    split at hstep
    · obtain rfl := Except.ok.inj hstep
      exact h
    · split at hstep
      · next header hparse =>
        obtain rfl := Except.ok.inj hstep
        refine h.follow (Header.isInline_of_parse? hparse ?_) _ _
        exact fun hmem ↦ hline (Chars.mem_of_mem_trim hmem)
      · obtain rfl := Except.ok.inj hstep
        exact h.addLine _ hline
  · -- inside a section a line ends it, is out of place, or is code of it
    split at hstep
    · obtain rfl := Except.ok.inj hstep
      exact { h with }
    · split at hstep
      · cases hstep
      · obtain rfl := Except.ok.inj hstep
        exact h.addLine _ hline

/-- The lines of a text keep what is known of the sections. -/
theorem IsSound.foldlM (h : r.IsSound) {lines : List SourceLine}
    (hlines : ∀ line ∈ lines, Text.IsInline line.text) {r' : Reader}
    (hread : lines.foldlM Reader.step r = .ok r') : r'.IsSound := by
  induction lines generalizing r with
  | nil =>
    obtain rfl := Except.ok.inj hread
    exact h
  | cons line lines ih =>
    obtain ⟨hline, hlines⟩ := List.forall_mem_cons.1 hlines
    rw [List.foldlM_cons] at hread
    obtain ⟨next, hnext, hread⟩ := Reading.bind_eq_ok.1 hread
    exact ih (h.step hline hnext) hlines hread

end Reader

/-- The sections are sound, no two of them are for one sprite, and none but the first one is for the
default sprite. -/
structure IsSound (o : Outline) : Prop where
  stage : ∀ line ∈ o.stage, Text.IsInline line.text
  sprites : ∀ s ∈ o.sprites, s.IsSound
  nodup : (keys o.sprites).Nodup
  tail : Text.lower Header.defaultSprite ∉ keys o.sprites.tail

/-- **Every outline of a text is sound.** -/
theorem isSound_of_ofText {text : String} {o : Outline} (h : ofText text = .ok o) : o.IsSound := by
  obtain ⟨r, hread, hfinish⟩ := Reading.bind_eq_ok.1 h
  have hr := Reader.isSound_start.foldlM (fun line ↦ isInline_of_mem_sourceLines) hread
  unfold Reader.finish at hfinish
  split at hfinish
  · cases hfinish
  · split at hfinish
    · next first rest hsprites =>
      obtain ⟨hstage, hsound, hnodup, hhead⟩ := hr
      rw [hsprites] at hsound hnodup hhead
      have hfirst : Text.lower first.name = Text.lower Header.defaultSprite := Option.some.inj hhead
      obtain ⟨hnew, hrest⟩ := List.nodup_cons.1 hnodup
      replace hnew : Text.lower Header.defaultSprite ∉ keys rest := hfirst ▸ hnew
      -- the default sprite is dropped if no header mentions it and there is another one
      split at hfinish
      · obtain rfl := Except.ok.inj hfinish
        refine ⟨hstage, (List.forall_mem_cons.1 hsound).2, hrest, fun hmem ↦ hnew ?_⟩
        exact ((List.tail_sublist rest).map _).subset hmem
      · obtain rfl := Except.ok.inj hfinish
        rw [hsprites]
        exact ⟨hstage, hsound, hnodup, hnew⟩
    · next hsprites =>
      have hhead := hr.head
      rw [hsprites] at hhead
      cases hhead

end Outline

/-! ### Lines of a listing -/

namespace Listing

variable {line : String}

theorem indentWidth_indent (text : String) : 0 < Token.indentWidth (indent 1 text) := by
  have hindent : (indent 1 text).toList = ' ' :: ' ' :: text.toList := by
    simp [indent, Text.replicate, indentation]
  rw [Token.indentWidth, hindent]
  simp

theorem isTidy_indent (depth : Nat) {text : String} (h : Text.IsTidy text) :
    Text.IsTidy (indent depth text) := by
  induction depth with
  | zero => simpa [indent, Text.replicate] using h
  | succ depth ih =>
    have hindent : indent (depth + 1) text = indentation ++ indent depth text := by
      simp [indent, Text.replicate, List.replicate_succ, String.append_assoc]
    rw [hindent]
    exact (by decide : Text.IsTidy indentation).append ih

/-- A line of a script starts with a word. -/
theorem IsLineOf.ne_empty {kind : String → Prop} (h : IsLineOf kind .builtin line) : line ≠ "" := by
  obtain ⟨depth, word, words, rfl, hword, -⟩ := h
  refine indent_ne_empty depth (commandLine_ne_empty ?_ words)
  rcases Header.builtin_isLead hword with rfl | hlead
  · decide
  · rintro rfl
    cases hlead.identifier

theorem IsLine.isTidy (h : IsLine .builtin line) : Text.IsTidy line := by
  obtain ⟨depth, word, words, rfl, hword, hwords⟩ := h
  refine isTidy_indent depth (Text.isTidy_join (by decide) (List.forall_mem_cons.2 ⟨?_, hwords⟩))
  rcases Header.builtin_isLead hword with rfl | hlead
  · decide
  · exact Text.isTidy_of_word (Chars.isWordChar_of_identifier hlead.identifier)

/-- The lines between the header of a sprite and its end. -/
def sectionBody (lines : List String) : List String :=
  if lines.isEmpty then [indent 1 "# no scripts imported for this sprite"] else inSection lines

theorem spriteSection_eq {t : Target} (h : ∀ source ∈ t.costume, source ≠ "")
    (lines : List String) :
    spriteSection t lines = "" :: ("sprite = " ++ Token.format t.name) ::
      (t.costume.toList.map (fun source ↦ "svg = " ++ Token.format source) ++
        ((codeHeader t.name ++ " =") :: sectionBody lines ++ ["end"])) := by
  cases hcostume : t.costume with
  | none => simp [spriteSection, sectionBody, hcostume]
  | some source =>
    have hne : source.isEmpty = false := by simpa using h source hcostume
    simp [spriteSection, sectionBody, hcostume, hne]

/-- What a line of a section is like. -/
structure IsIndented (line : String) : Prop where
  tidy : Text.IsTidy line
  indent : line = "" ∨ 0 < Token.indentWidth line
  loose : Outline.isIdle line = true ∨ Header.parse? (Chars.trim line.toList) = none

theorem isIndented_of_isLine (h : IsLine .builtin line) : IsIndented (indent 1 line) where
  tidy := isTidy_indent 1 h.isTidy
  indent := .inr (indentWidth_indent line)
  loose := by
    rw [Outline.isIdle, trim_toList_indent]
    exact (Header.parse?_of_isLine h).imp_left fun hhead ↦ by simp [hhead]

theorem isIndented_of_mem_inSection {lines : List String}
    (h : ∀ line ∈ lines, line = "" ∨ IsLine .builtin line) (hline : line ∈ inSection lines) :
    IsIndented line := by
  obtain ⟨text, htext, rfl⟩ := List.mem_map.1 hline
  rcases h text htext with rfl | htext
  · exact ⟨by decide, .inl rfl, .inl (by decide)⟩
  · split
    · next hempty =>
      rw [String.isEmpty_iff.1 hempty]
      exact ⟨by decide, .inl rfl, .inl (by decide)⟩
    · exact isIndented_of_isLine htext

theorem isIndented_of_mem_sectionBody {lines : List String}
    (h : ∀ line ∈ lines, line = "" ∨ IsLine .builtin line) (hline : line ∈ sectionBody lines) :
    IsIndented line := by
  unfold sectionBody at hline
  split at hline
  · rw [List.mem_singleton.1 hline]
    exact isIndented_of_isLine
      ⟨0, "#", ["no scripts imported for this sprite"], by decide, by decide, by decide⟩
  · exact isIndented_of_mem_inSection h hline

/-- The lines of a sprite as they are read. Where the header of the section is no header, it is a
line of the sprite itself, and so is the end. -/
def readLines (name : String) (lines : List String) : List String :=
  if '"' ∈ name.toList then
    ((codeHeader name ++ " =") :: sectionBody lines ++ ["end"]).filter (!Outline.isIdle ·)
  else sectionBody lines

/-- What a sprite needs so that its section is read back. -/
structure IsReadable (t : Target) : Prop where
  name : Text.isProper t.name = true ∧ Text.IsInline t.name
  safe : Header.IsSafe t.name
  costume : ∀ source ∈ t.costume, Text.isProper source = true ∧ Text.IsInline source
  lines : ∀ line ∈ (targetLines .builtin t).1, line = "" ∨ IsLine .builtin line

end Listing

namespace Outline

theorem indentWidth_eq_zero {s : String} (h : Chars.trim s.toList = s.toList) :
    Token.indentWidth s = 0 := by
  have hhead : ∀ c ∈ s.toList.head?, Text.isWhite c = false := by
    rw [← h]
    exact Chars.head?_trim s.toList
  rw [Token.indentWidth]
  cases hs : s.toList with
  | nil => rfl
  | cons c cs =>
    have hwhite := hhead c (by rw [hs]; rfl)
    have hstop : ¬(c == ' ' || c == '\t') = true := by
      intro hc
      rcases Bool.or_eq_true_iff.1 hc with hc | hc
      · exact absurd (eq_of_beq hc ▸ hwhite) (by decide)
      · exact absurd (eq_of_beq hc ▸ hwhite) (by decide)
    rw [List.takeWhile_cons, if_neg hstop]
    rfl

theorem isIdle_eq_false {s : String} {c : Char} (htrim : Chars.trim s.toList = s.toList)
    (hhead : s.toList.head? = some c) (hc : c ≠ '#') : isIdle s = false := by
  have hne : s.toList ≠ [] := by
    rintro hnil
    rw [hnil] at hhead
    cases hhead
  rw [isIdle, htrim, hhead]
  simp [hne, hc]

/-- A line that ends in a token has no white space around it. -/
theorem trim_append_format {front : String} {c : Char} (hhead : front.toList.head? = some c)
    (hc : Text.isWhite c = false) (s : String) :
    Chars.trim (front ++ Token.format s).toList = (front ++ Token.format s).toList := by
  have hword := Token.isWord_format s
  obtain ⟨last, hlast⟩ := Option.ne_none_iff_exists'.1 (mt List.getLast?_eq_none_iff.1 hword.ne_nil)
  rw [String.toList_append]
  refine Chars.trim_eq_self (fun d hd ↦ ?_) fun d hd ↦ ?_
  · rw [List.head?_append, hhead] at hd
    exact Option.some.inj hd ▸ hc
  · rw [List.getLast?_append, hlast] at hd
    exact hword.getLast?_not_white d (hlast.trans hd)

/-- A line that assigns a token is followed as the header it is. -/
theorem Reader.step_assignment {r : Reader} {source : SourceLine} {front s : String}
    {header : Header} (hr : r.open? = none) (hfront : front.toList.head? = some 's')
    (hheader : Header.parse? (front ++ Token.format s).toList = some header)
    (h : source.text = front ++ Token.format s) :
    r.step source = .ok (r.follow source.line (Token.indentWidth source.text) header) := by
  have htrim := trim_append_format hfront (by decide) s
  have hhead : (front ++ Token.format s).toList.head? = some 's' := by
    rw [String.toList_append, List.head?_append, hfront]
    rfl
  refine step_header hr ?_ ?_
  · rw [h]
    exact isIdle_eq_false htrim hhead (by decide)
  · rw [h, htrim]
    exact hheader

theorem isIdle_codeHeader {name : String} (h : Text.isProper name = true) :
    isIdle (Listing.codeHeader name ++ " =") = false := by
  obtain ⟨c, hhead, hc⟩ : ∃ c, (Listing.codeHeader name ++ " =").toList.head? = some c ∧
    c ≠ '#' := by
    rcases Header.codeHeader_cases h with ⟨hplain, hline⟩ | ⟨-, hline⟩
    · obtain ⟨c, rest, hcons⟩ := List.exists_cons_of_ne_nil
        (by simpa using (Text.isProper_iff.1 h).2 : name.toList ≠ [])
      refine ⟨c, by rw [hline, hcons]; rfl, ?_⟩
      rintro rfl
      exact absurd (hplain '#' (hcons ▸ List.mem_cons_self)) (by decide)
    · exact ⟨'"', by rw [hline]; rfl, by decide⟩
  exact isIdle_eq_false (Header.trim_codeHeader h) hhead hc

namespace Reader

variable {r : Reader} {stage : List SourceLine} {front : List SpriteSection}

open Listing in
/-- The section of the last sprite is read to it. -/
theorem reads_section {name : String} (hname : Text.isProper name = true)
    (hsafe : Header.IsSafe name) (hfront : ∀ s ∈ front, Text.lower s.name ≠ Text.lower name)
    {body : List String} (hbody : ∀ line ∈ sectionBody body, IsIndented line)
    (costume : Option String) :
    Reads ((codeHeader name ++ " =") :: sectionBody body ++ ["end"])
      (fun r' ↦ ∃ lines, lines.map SourceLine.text = readLines name body ∧
        r' = ⟨stage, front ++ [⟨name, costume, lines, true⟩], front.length, none⟩)
      ⟨stage, front ++ [⟨name, costume, [], true⟩], front.length, none⟩ := by
  have htrim := Header.trim_codeHeader hname
  by_cases hquote : '"' ∈ name.toList
  · -- the header is taken for a line of the sprite, and so are all lines up to the end
    have hloose : ∀ line ∈ (codeHeader name ++ " =") :: sectionBody body ++ ["end"],
        isIdle line = true ∨ Header.parse? (Chars.trim line.toList) = none := by
      refine List.forall_mem_append.2 ⟨List.forall_mem_cons.2 ⟨.inr ?_, fun line hline ↦ ?_⟩, ?_⟩
      · rw [htrim]
        exact Header.parse?_codeHeader_quote hname hquote
      · exact (hbody line hline).loose
      · exact List.forall_mem_singleton.2 (.inr (by decide))
    intro lines hlines
    obtain ⟨r', hread, read, htexts, rfl⟩ := reads_loose
      (r := ⟨stage, front ++ [⟨name, costume, [], true⟩], front.length, none⟩)
      rfl hloose lines hlines
    refine ⟨_, hread, read, by rw [htexts, readLines, if_pos hquote], ?_⟩
    rw [addLines_last]
    rfl
  · obtain ⟨hback, hstage⟩ := hsafe.resolve_left hquote
    refine .cons fun line hline ↦ ?_
    have hheader := Header.parse?_codeHeader hname hquote hback hstage
    rw [← htrim, ← hline] at hheader
    have hidle : isIdle line.text = false := hline ▸ isIdle_codeHeader hname
    have hindent : Token.indentWidth line.text = 0 := hline ▸ indentWidth_eq_zero htrim
    refine ⟨_, step_header rfl hidle hheader, ?_⟩
    simp only [follow, mention_last hname hfront, hindent]
    refine (reads_inside rfl fun text htext ↦ (hbody text htext).indent).append ?_
    rintro - ⟨lines, htexts, rfl⟩
    rw [addLines_last]
    refine .cons fun line hline ↦ ⟨_, step_end rfl hline, .nil ⟨lines, ?_, rfl⟩⟩
    rw [htexts, readLines, if_neg hquote]

open Listing in
/-- **The section of a sprite is read back.** -/
theorem reads_spriteSection {t : Target} (ht : IsReadable t) (hr : r.open? = none)
    (hmention : r.mention t.name = ({ r with sprites := front ++ [⟨t.name, none, [], true⟩] },
      t.name, front.length))
    (hfront : ∀ s ∈ front, Text.lower s.name ≠ Text.lower t.name) :
    Reads (spriteSection t (targetLines .builtin t).1)
      (fun r' ↦ ∃ lines, lines.map SourceLine.text = readLines t.name (targetLines .builtin t).1 ∧
        r' = ⟨r.stage, front ++ [⟨t.name, t.costume, lines, true⟩], front.length, none⟩) r := by
  have hbody : ∀ line ∈ sectionBody (targetLines .builtin t).1, IsIndented line := fun line ↦
    isIndented_of_mem_sectionBody ht.lines
  have hname := ht.name.1
  rw [spriteSection_eq fun source hsource ↦ (Text.isProper_iff.1 (ht.costume source hsource).1).2]
  refine .idle hr (by decide) (.cons fun line hline ↦ ?_)
  refine ⟨_, step_assignment hr (by decide) (Header.parse?_spriteName t.name) hline, ?_⟩
  simp only [follow, hmention, hr]
  cases hcostume : t.costume with
  | none => exact reads_section hname ht.safe hfront hbody none
  | some source =>
    have hsource := (ht.costume source hcostume).1
    refine .cons fun line hline ↦ ?_
    refine ⟨_, step_assignment rfl (by decide) (Header.parse?_costume source) hline, ?_⟩
    simp only [follow, modify_last, Text.isBlank_of_isProper hsource, Text.trim_of_isProper hsource]
    exact reads_section hname ht.safe hfront hbody (some source)

/-- What is read of a section, the numbers of its lines aside. -/
def view (s : SpriteSection) : String × Option String × List String :=
  (s.name, s.costume, s.lines.map SourceLine.text)

/-- What is to be read of the section of a sprite. -/
def expected (t : Target) : String × Option String × List String :=
  (t.name, t.costume, Listing.readLines t.name (Listing.targetLines .builtin t).1)

open Listing in
/-- Sprites whose names are new are read one after the other. -/
theorem reads_sprites {targets : List Target} (ht : ∀ t ∈ targets, IsReadable t)
    (hnodup : (targets.map fun t ↦ Text.lower t.name).Nodup) (hr : r.open? = none)
    (hnew : ∀ s ∈ r.sprites, ∀ t ∈ targets, Text.lower s.name ≠ Text.lower t.name) :
    Reads (targets.flatMap fun t ↦ spriteSection t (targetLines .builtin t).1)
      (fun r' ↦ r'.open? = none ∧ r'.stage = r.stage ∧ ∃ sections,
        r'.sprites = r.sprites ++ sections ∧ sections.map view = targets.map expected) r := by
  induction targets generalizing r with
  | nil => exact .nil ⟨hr, rfl, [], by simp, rfl⟩
  | cons t rest ih =>
    obtain ⟨hfirst, hrest⟩ := List.forall_mem_cons.1 ht
    obtain ⟨hother, hnodup⟩ := List.nodup_cons.1 hnodup
    have hfront : ∀ s ∈ r.sprites, Text.lower s.name ≠ Text.lower t.name := fun s hs ↦
      hnew s hs t List.mem_cons_self
    refine (reads_spriteSection hfirst hr (mention_new hfirst.name.1 hfront) hfront).append ?_
    rintro - ⟨lines, hlines, rfl⟩
    have hnew' : ∀ s ∈ r.sprites ++ [⟨t.name, t.costume, lines, true⟩], ∀ u ∈ rest,
        Text.lower s.name ≠ Text.lower u.name := by
      refine List.forall_mem_append.2 ⟨fun s hs u hu ↦ hnew s hs u (List.mem_cons_of_mem _ hu), ?_⟩
      refine List.forall_mem_singleton.2 fun u hu heq ↦ hother ?_
      exact List.mem_map.2 ⟨u, hu, heq.symm⟩
    intro sources hsources
    obtain ⟨r', hread, hopen, hstage, sections, hsprites, hview⟩ :=
      ih hrest hnodup (r := ⟨r.stage, r.sprites ++ [⟨t.name, t.costume, lines, true⟩],
        r.sprites.length, none⟩) rfl hnew' sources hsources
    refine ⟨r', hread, hopen, hstage, ⟨t.name, t.costume, lines, true⟩ :: sections, ?_, ?_⟩
    · rw [hsprites, List.append_assoc]
      rfl
    · rw [List.map_cons, List.map_cons, hview]
      simp [view, expected, hlines]

open Listing in
/-- The section of the stage is read back. -/
theorem reads_stageSection {lines : List String}
    (h : ∀ line ∈ lines, line = "" ∨ IsLine .builtin line) :
    Reads (banner ++ stageSection lines)
      (fun r' ↦ ∃ stage, stage.map SourceLine.text = inSection lines ∧ r' = { stage }) {} := by
  refine .idle rfl (by decide) (.idle rfl (by decide) ?_)
  by_cases hempty : lines.isEmpty = true
  · rw [List.isEmpty_iff.1 hempty]
    exact .nil ⟨[], rfl, rfl⟩
  · have hsection : stageSection lines = "" :: "stage_code =" :: (inSection lines ++ ["end"]) := by
      rw [stageSection, if_neg hempty]
      rfl
    show Reads (stageSection lines) _ _
    rw [hsection]
    refine .idle rfl (by decide) (.cons fun line hline ↦ ?_)
    have hheader : Header.parse? (Chars.trim line.text.toList) = some .stageCode := by
      rw [hline]
      decide
    have hindent : Token.indentWidth line.text = 0 := by
      rw [hline]
      decide
    refine ⟨_, step_header rfl (by rw [hline]; decide) hheader, ?_⟩
    simp only [follow, hindent]
    refine (reads_inside rfl fun text htext ↦ (isIndented_of_mem_inSection h htext).indent).append
      ?_
    rintro - ⟨stage, hstage, rfl⟩
    rw [addLines_stage]
    exact .cons fun line hline ↦ ⟨_, step_end rfl hline, .nil ⟨stage, hstage, rfl⟩⟩

open Listing in
/-- The sections of all sprites are read back, and nothing is left of the default sprite but what is
said of it. -/
theorem reads_allSprites {t : Target} {rest : List Target} (ht : ∀ u ∈ t :: rest, IsReadable u)
    (hnodup : ((t :: rest).map fun t ↦ Text.lower t.name).Nodup)
    (hdefault : ∀ u ∈ rest, Text.lower Header.defaultSprite ≠ Text.lower u.name)
    (stage : List SourceLine) :
    Reads ((t :: rest).flatMap fun t ↦ spriteSection t (targetLines .builtin t).1)
      (fun r' ↦ ∃ outline, r'.finish = .ok outline ∧ outline.stage = stage ∧
        outline.sprites.map view = (t :: rest).map expected) { stage } := by
  obtain ⟨hfirst, hrest⟩ := List.forall_mem_cons.1 ht
  obtain ⟨hother, hnodup'⟩ := List.nodup_cons.1 hnodup
  by_cases hname : Text.lower Header.defaultSprite = Text.lower t.name
  · -- the first sprite takes the place of the default one
    refine (reads_spriteSection hfirst rfl (mention_default hfirst.name.1 hname stage)
      (List.forall_mem_nil _)).append ?_
    rintro - ⟨lines, hlines, rfl⟩
    have hnew : ∀ s ∈ [(⟨t.name, t.costume, lines, true⟩ : SpriteSection)], ∀ u ∈ rest,
        Text.lower s.name ≠ Text.lower u.name :=
      List.forall_mem_singleton.2 fun u hu ↦ hname ▸ hdefault u hu
    intro sources hsources
    obtain ⟨r', hread, hopen, hstage, sections, hsprites, hview⟩ :=
      reads_sprites (r := ⟨stage, [⟨t.name, t.costume, lines, true⟩], 0, none⟩)
        hrest hnodup' rfl hnew sources hsources
    refine ⟨r', hread, ⟨r'.stage, r'.sprites⟩, ?_, hstage, ?_⟩
    · rw [finish, hopen, hsprites]
      simp [isUnused]
    · rw [hsprites, List.map_append, hview]
      simp [view, expected, hlines]
  · -- the default sprite stays unused and is dropped in the end
    have hnew : ∀ s ∈ (Reader.mk stage [⟨Header.defaultSprite, none, [], false⟩] 0 none).sprites,
        ∀ u ∈ t :: rest, Text.lower s.name ≠ Text.lower u.name :=
      List.forall_mem_singleton.2 (List.forall_mem_cons.2 ⟨hname, hdefault⟩)
    intro sources hsources
    obtain ⟨r', hread, hopen, hstage, sections, hsprites, hview⟩ :=
      reads_sprites ht hnodup rfl hnew sources hsources
    refine ⟨r', hread, ⟨r'.stage, sections⟩, ?_, hstage, hview⟩
    have hsections : sections.isEmpty = false := by
      rw [List.isEmpty_eq_false_iff]
      rintro rfl
      cases hview
    rw [finish, hopen, hsprites]
    simp [isUnused, hsections]

end Reader

end Outline

/-- Sprites are made of their sections. -/
theorem Compile.sections_of_makes {catalog : Catalog} {stage : Symbols}
    {sections : List SpriteSection} {built : List (SpriteSection × TargetBuild)}
    (h : List.Forall₂ (Makes catalog stage) sections built) :
    built.map (·.1) = sections ∧ ∀ b ∈ built, b.2.target.name = b.1.name := by
  induction h with
  | nil => exact ⟨rfl, List.forall_mem_nil _⟩
  | cons hmakes _ ih =>
    refine ⟨?_, List.forall_mem_cons.2 ⟨hmakes.name, ih.2⟩⟩
    rw [List.map_cons, ih.1, hmakes.1]

/-- No text in a program that was made from a source text holds a line feed. -/
theorem Compile.isInline_of_ofText {text : String} {compiled : Compiled}
    (h : ofText .builtin text = .ok compiled) : ∀ t ∈ compiled.program.targets, t.IsInline := by
  obtain ⟨outline, houtline, hmade⟩ := Reading.bind_eq_ok.1 h
  have hsound := Outline.isSound_of_ofText houtline
  exact isInline_of_ofOutline Catalog.builtin_isInline hsound.stage
    (fun s hs ↦ (hsound.sprites s hs).lines) hmade

/-- The sprites of a program have the names and the costumes of their sections. -/
theorem Compile.dressings_of_ofOutline {catalog : Catalog} {outline : Outline} {compiled : Compiled}
    (h : ofOutline catalog outline = .ok compiled) :
    compiled.program.sprites.map (fun t ↦ (t.name, t.costume)) =
      outline.sprites.map fun s ↦ (s.name, s.costume) := by
  obtain ⟨d, built, -, hbuilt, hsprites, -⟩ := ofOutline_eq_ok h
  obtain ⟨hsections, hnames⟩ := sections_of_makes (makes_of_sprites hbuilt)
  rw [hsprites, ← hsections, List.map_map, List.map_map]
  exact List.map_congr_left fun b hb ↦ Prod.ext (hnames b hb) rfl

/-- The name and the costume of a sprite are those of a section. -/
theorem Compile.exists_section {catalog : Catalog} {outline : Outline} {compiled : Compiled}
    (h : ofOutline catalog outline = .ok compiled) {t : Target}
      (ht : t ∈ compiled.program.sprites) :
    ∃ s ∈ outline.sprites, s.name = t.name ∧ s.costume = t.costume := by
  have hmem : (t.name, t.costume) ∈ outline.sprites.map fun s ↦ (s.name, s.costume) :=
    dressings_of_ofOutline h ▸ List.mem_map_of_mem ht
  obtain ⟨s, hs, heq⟩ := List.mem_map.1 hmem
  exact ⟨s, hs, congrArg Prod.fst heq, congrArg Prod.snd heq⟩

namespace Listing

/-! ### Texts of listings -/

theorem isTidy_of_mem_stageSection {lines : List String} {line : String}
    (h : ∀ line ∈ lines, line = "" ∨ IsLine .builtin line) (hline : line ∈ stageSection lines) :
    Text.IsTidy line := by
  unfold stageSection at hline
  split at hline
  · cases hline
  · rcases List.mem_append.1 hline with hline | hline
    · rcases List.mem_append.1 hline with hline | hline
      · exact (by decide : ∀ line ∈ ["", "stage_code ="], Text.IsTidy line) line hline
      · exact (isIndented_of_mem_inSection h hline).tidy
    · rw [List.mem_singleton.1 hline]
      decide

theorem isTidy_codeHeader {name : String} (h : Text.isProper name = true)
    (hinline : Text.IsInline name) : Text.IsTidy (codeHeader name ++ " =") := by
  have hline : ∀ cs : List Char, '\n' ∉ cs →
      (codeHeader name ++ " =").toList = cs ++ "_code =".toList →
      Text.IsTidy (codeHeader name ++ " =") := by
    intro cs hcs heq
    refine ⟨?_, ?_⟩
    · rw [Text.IsInline, heq, List.mem_append, not_or]
      exact ⟨hcs, by decide⟩
    · rw [heq, List.getLast?_append]
      exact (by decide : some '=' ≠ some '\r')
  rcases Header.codeHeader_cases h with ⟨-, heq⟩ | ⟨-, heq⟩
  · exact hline _ hinline heq
  · exact hline _ (Chars.notMem_quoted hinline (by decide) (by decide)) heq

theorem isTidy_of_mem_spriteSection {t : Target} (ht : IsReadable t) {line : String}
    (hline : line ∈ spriteSection t (targetLines .builtin t).1) : Text.IsTidy line := by
  rw [spriteSection_eq fun source hsource ↦ (Text.isProper_iff.1 (ht.costume source hsource).1).2]
    at hline
  rcases List.mem_cons.1 hline with rfl | hline
  · decide
  rcases List.mem_cons.1 hline with rfl | hline
  · exact (by decide : Text.IsTidy "sprite = ").append (Text.isTidy_format ht.name.2)
  rcases List.mem_append.1 hline with hline | hline
  · obtain ⟨source, hsource, rfl⟩ := List.mem_map.1 hline
    have hinline := (ht.costume source (Option.mem_toList.1 hsource)).2
    exact (by decide : Text.IsTidy "svg = ").append (Text.isTidy_format hinline)
  rcases List.mem_append.1 hline with hline | hline
  · rcases List.mem_cons.1 hline with rfl | hline
    · exact isTidy_codeHeader ht.name.1 ht.name.2
    · exact (isIndented_of_mem_sectionBody ht.lines hline).tidy
  · rw [List.mem_singleton.1 hline]
    decide

/-- Sections are read back from the listing of a program whose sprites allow it. -/
theorem exists_outline {program : Program} (hne : program.sprites ≠ [])
    (hstage : ∀ line ∈ (targetLines .builtin program.stage).1, line = "" ∨ IsLine .builtin line)
    (hsprites : ∀ t ∈ program.sprites, IsReadable t)
    (hnodup : (program.sprites.map fun t ↦ Text.lower t.name).Nodup)
    (hdefault : ∀ t ∈ program.sprites.tail, Text.lower Header.defaultSprite ≠ Text.lower t.name) :
    ∃ outline, Outline.ofText (ofProgram .builtin program).text = .ok outline ∧
      outline.stage.map SourceLine.text = inSection (targetLines .builtin program.stage).1 ∧
      outline.sprites.map Outline.Reader.view = program.sprites.map Outline.Reader.expected := by
  have hlines := programLines_eq .builtin program
  have htidy : ∀ line ∈ programLines .builtin program, Text.IsTidy line := by
    rw [hlines]
    intro line hline
    rcases List.mem_append.1 hline with hline | hline
    · rcases List.mem_append.1 hline with hline | hline
      · exact (by decide : ∀ line ∈ banner, Text.IsTidy line) line hline
      · exact isTidy_of_mem_stageSection hstage hline
    · obtain ⟨t, ht, hline⟩ := List.mem_flatMap.1 hline
      exact isTidy_of_mem_spriteSection (hsprites t ht) hline
  -- the last line is not empty, so the text gives the lines and nothing after them
  have htexts := Outline.texts_sourceLines htidy
    (hlines ▸ isTrimmed_sections .builtin program : IsTrimmed _)
  obtain ⟨t, rest, hcons⟩ := List.exists_cons_of_ne_nil hne
  rw [hcons] at hsprites hnodup hdefault
  have hreads : Outline.Reader.Reads (programLines .builtin program)
      (fun r ↦ ∃ outline, r.finish = .ok outline ∧
        outline.stage.map SourceLine.text = inSection (targetLines .builtin program.stage).1 ∧
        outline.sprites.map Outline.Reader.view = program.sprites.map Outline.Reader.expected)
          {} := by
    rw [hlines, hcons]
    refine (Outline.Reader.reads_stageSection hstage).append ?_
    rintro - ⟨stage, hstage, rfl⟩
    intro sources hsources
    obtain ⟨r, hread, outline, hfinish, rfl, hview⟩ :=
      Outline.Reader.reads_allSprites hsprites hnodup hdefault stage sources hsources
    exact ⟨r, hread, outline, hfinish, hstage, hview⟩
  obtain ⟨r, hread, outline, hfinish, hresult⟩ := hreads _ htexts
  exact ⟨outline, Reading.bind_eq_ok.2 ⟨r, hread, hfinish⟩, hresult⟩

/-- **The listing of a program is cut into the sections of the program**: its stage, and one section
for each sprite with its name and its costume, in the same order. The names have to be safe. -/
theorem outline_ofProgram {text : String} {compiled : Compiled}
    (h : Compile.ofText .builtin text = .ok compiled) (hne : compiled.program.sprites ≠ [])
    (hsafe : ∀ t ∈ compiled.program.sprites, Header.IsSafe t.name) :
    ∃ outline, Outline.ofText (ofProgram .builtin compiled.program).text = .ok outline ∧
      outline.stage.map SourceLine.text =
        inSection (targetLines .builtin compiled.program.stage).1 ∧
      outline.sprites.map (fun s ↦ (s.name, s.costume, s.lines.map SourceLine.text)) =
        compiled.program.sprites.map fun t ↦
          (t.name, t.costume, readLines t.name (targetLines .builtin t).1) := by
  have hinline := Compile.isInline_of_ofText h
  obtain ⟨outline, houtline, hmade⟩ := Reading.bind_eq_ok.1 h
  have hsound := Outline.isSound_of_ofText houtline
  have hlines : ∀ t ∈ compiled.program.targets, ∀ line ∈ (targetLines .builtin t).1,
      line = "" ∨ IsLine .builtin line := fun t ht _ ↦
    isLineOf_of_mem_targetLines Text.isLineKind_isTidy Catalog.builtin_isRegular
      Catalog.builtin_isInline (hinline t ht).shows (hinline t ht).declaresInline
  have hkeys : (compiled.program.sprites.map fun t ↦ Text.lower t.name) =
      Outline.keys outline.sprites := by
    have hnames := congrArg (List.map fun dressing ↦ Text.lower dressing.1)
      (Compile.dressings_of_ofOutline hmade)
    rwa [List.map_map, List.map_map] at hnames
  refine exists_outline hne (hlines _ List.mem_cons_self) (fun t ht ↦ ?_) ?_ fun t ht heq ↦ ?_
  · obtain ⟨s, hs, hname, hcostume⟩ := Compile.exists_section hmade ht
    exact ⟨hname ▸ (hsound.sprites s hs).name, hsafe t ht, hcostume ▸ (hsound.sprites s hs).costume,
      hlines t (List.mem_cons_of_mem _ ht)⟩
  · rw [hkeys]
    exact hsound.nodup
  · refine hsound.tail ?_
    rw [Outline.keys, List.map_tail, ← Outline.keys, ← hkeys, ← List.map_tail, heq]
    exact List.mem_map_of_mem ht

/-- A stage with a variable and two sprites: the name of one holds a quote and a space, and the
other has a costume. -/
def quotedText : String :=
  "stage_code =\n  set_var Score 1\nend\nsprite = 'My \"Cat\"'\nshow\n" ++
    "sprite = \"Big Dog\"\nsvg = dog.svg\nhide\n"

theorem outline_ofProgram_quoted :
    ∃ compiled outline, Compile.ofText .builtin quotedText = .ok compiled ∧
      compiled.program.sprites.map Target.name = ["My \"Cat\"", "Big Dog"] ∧
      Outline.ofText (ofProgram .builtin compiled.program).text = .ok outline ∧
      outline.stage.map SourceLine.text =
        inSection (targetLines .builtin compiled.program.stage).1 ∧
      outline.sprites.map (fun s ↦ (s.name, s.costume, s.lines.map SourceLine.text)) =
        compiled.program.sprites.map fun t ↦
          (t.name, t.costume, readLines t.name (targetLines .builtin t).1) := by
  have hmade : (Compile.ofText .builtin quotedText).toOption.map (fun compiled ↦
      compiled.program.sprites.map Target.name) = some ["My \"Cat\"", "Big Dog"] := by
    decide +kernel
  cases hcompile : Compile.ofText .builtin quotedText with
  | error e =>
    rw [hcompile] at hmade
    cases hmade
  | ok compiled =>
    rw [hcompile] at hmade
    have hnames : compiled.program.sprites.map Target.name = ["My \"Cat\"", "Big Dog"] :=
      Option.some.inj hmade
    have hsafe : ∀ name ∈ ["My \"Cat\"", "Big Dog"], Header.IsSafe name := by decide
    have hne : compiled.program.sprites ≠ [] := fun hnil ↦ by
      rw [hnil] at hnames
      cases hnames
    obtain ⟨outline, hread⟩ := outline_ofProgram hcompile hne fun t ht ↦
      hsafe t.name (hnames ▸ List.mem_map_of_mem ht)
    exact ⟨compiled, outline, rfl, hnames, hread⟩

end Listing

end BlockScript
