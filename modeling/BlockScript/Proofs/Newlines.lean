import BlockScript.Proofs.Listed
import BlockScript.Proofs.Outlined

/-!
# Line feeds in a listing

A listing is made of lines, so a text with a line feed breaks a line in two, and what follows the
line feed is read as a line of its own. Nothing on the way to a listing takes line feeds out: in a
token and in the header of a section they stand between the quotes (`Text.isInline_format`), and a
line may end in a signature, an operation code or the identifier of a block as they are
(`Target.Shows`).

As long as the blocks of a program show no line feed, its lines hold none if and only if the names
and values that it declares hold none, as far as they are shown (`Listing.isInline_programLines`).
Then the lines of the text are the lines that it was joined of (`Listing.textLines_ofProgram`).
-/

namespace BlockScript

/-! ### Texts -/

namespace Text

variable {s t : String}

/-- Two texts together stay on one line if both do. -/
theorem isInline_append : IsInline (s ++ t) ↔ IsInline s ∧ IsInline t := by
  rw [IsInline, String.toList_append, List.mem_append, not_or]
  rfl

/-- A token holds a line feed if the text does. -/
theorem isInline_format : IsInline (Token.format s) ↔ IsInline s := by
  refine ⟨fun h hmem ↦ h ?_, fun h ↦ (isTidy_format h).inline⟩
  rw [Token.toList_format, Chars.formatToken]
  split
  · exact hmem
  · exact List.mem_append_left _ (List.mem_cons_of_mem _ (Header.mem_escape_of_mem hmem))

/-- A name is shown without the white space around it. -/
theorem isInline_nameOr (ht : IsTidy t) : IsInline (nameOr s t) ↔ IsInline (trim s) := by
  refine ⟨fun h ↦ ?_, fun h ↦ (Listing.isTidy_shownName h ht).inline⟩
  unfold nameOr at h
  dsimp only at h
  split at h
  · next hempty =>
    rw [String.isEmpty_iff.1 hempty]
    decide
  · exact h

end Text

namespace Listing

variable {lines more : List String}

/-- An initial value stays on one line if the text does or is a number. -/
theorem isInline_initialValue {text : String} : Text.IsInline (initialValue text) ↔
    (Text.IsInline text ∨ Text.isBlank text = false ∧ (Number.parse? text).isSome = true) := by
  refine ⟨fun h ↦ ?_, fun h ↦ (isTidy_initialValue h).inline⟩
  unfold initialValue at h
  split at h
  · exact .inl (Text.isInline_format.1 h)
  · next hblank =>
    split at h
    · next n hn => exact .inr ⟨by simpa using hblank, by rw [hn]; rfl⟩
    · exact .inl (Text.isInline_format.1 h)

/-- Indentation is no line feed. -/
theorem isInline_indent {depth : Nat} {text : String} :
    Text.IsInline (indent depth text) ↔ Text.IsInline text := by
  have hindent : ∀ n, Text.IsInline (Text.replicate n indentation) := by
    intro n
    induction n with
    | zero => decide
    | succ n ih =>
      have hcons : Text.replicate (n + 1) indentation =
          indentation ++ Text.replicate n indentation := by
        simp [Text.replicate, List.replicate_succ]
      rw [hcons]
      exact Text.IsInline.append (by decide) ih
  rw [indent, Text.isInline_append]
  exact and_iff_right (hindent depth)

/-! ### Lines -/

/-- No line holds a line feed. -/
def AllInline (lines : List String) : Prop :=
  ∀ line ∈ lines, Text.IsInline line

/-- Two groups of lines stay on their lines if both do. -/
theorem allInline_append :
    AllInline (lines ++ more) ↔ AllInline lines ∧ AllInline more :=
  List.forall_mem_append

/-- Empty lines make no difference. -/
theorem allInline_inked : AllInline (inked lines) ↔ AllInline lines := by
  refine ⟨fun h line hline ↦ ?_, fun h line hline ↦ h line (List.mem_of_mem_filter hline)⟩
  by_cases hempty : line.isEmpty = true
  · rw [String.isEmpty_iff.1 hempty]
    decide
  · exact h line (List.mem_filter.2 ⟨hline, by simpa using hempty⟩)

/-- A section stays on its lines if its contents do. -/
theorem allInline_inSection : AllInline (inSection lines) ↔ AllInline lines := by
  have hline : ∀ line : String,
      Text.IsInline (if line.isEmpty then line else indent 1 line) ↔ Text.IsInline line := by
    intro line
    split
    · rfl
    · exact isInline_indent
  simp only [AllInline, inSection, List.forall_mem_map, hline]

/-- The section of the stage stays on its lines if its contents do. -/
theorem allInline_stageSection : AllInline (stageSection lines) ↔ AllInline lines := by
  unfold stageSection
  split
  · next hempty => rw [List.isEmpty_iff.1 hempty]
  · rw [allInline_append, allInline_append, allInline_inSection]
    have hfront : AllInline ["", "stage_code ="] := by unfold AllInline; decide
    have hback : AllInline ["end"] := by unfold AllInline; decide
    exact ⟨fun h ↦ h.1.2, fun h ↦ ⟨⟨hfront, h⟩, hback⟩⟩

/-- The header of a section holds the name of the sprite. -/
theorem isInline_codeHeader {name : String} (h : Text.IsInline name) :
    Text.IsInline (codeHeader name ++ " =") := by
  have hname := Text.isProper_nameOr name (by decide : Text.isProper "Sprite" = true)
  have hinline : Text.IsInline (Text.nameOr name "Sprite") :=
    (Text.isInline_nameOr (by decide)).2 h.trim
  have hheader : codeHeader name = codeHeader (Text.nameOr name "Sprite") := by
    rw [codeHeader, codeHeader, Text.nameOr_of_isProper hname]
  rw [hheader]
  exact (isTidy_codeHeader hname hinline).inline

/-- A word and a token stay on one line if the token does. -/
theorem isInline_word_append {word text : String} (hword : Text.IsInline word) :
    Text.IsInline (word ++ Token.format text) ↔ Text.IsInline text := by
  rw [Text.isInline_append, Text.isInline_format]
  exact and_iff_right hword

/-- The line of a costume stays on its line if the source of the costume does. -/
theorem allInline_costume {costume : Option String} :
    AllInline (match costume with
      | some source => if source.isEmpty then [] else ["svg = " ++ Token.format source]
      | none => []) ↔ ∀ source ∈ costume, Text.IsInline source := by
  cases costume with
  | none => simp [AllInline]
  | some source =>
    by_cases hempty : source = ""
    · simp [AllInline, hempty, (by decide : Text.IsInline "")]
    · simp [AllInline, hempty, isInline_word_append (by decide : Text.IsInline "svg = ")]

/-- The section of a sprite stays on its lines if its name, its costume and its contents do. -/
theorem allInline_spriteSection {sprite : Target} :
    AllInline (spriteSection sprite lines) ↔
      (Text.IsInline sprite.name ∧ ∀ source ∈ sprite.costume, Text.IsInline source) ∧
        AllInline lines := by
  have hname : AllInline ["", "sprite = " ++ Token.format sprite.name] ↔
      Text.IsInline sprite.name := by
    simp only [AllInline, List.forall_mem_cons,
      isInline_word_append (by decide : Text.IsInline "sprite = ")]
    exact ⟨fun h ↦ h.2.1, fun h ↦ ⟨by decide, h, List.forall_mem_nil _⟩⟩
  have hbody : AllInline (if lines.isEmpty then [indent 1 "# no scripts imported for this sprite"]
      else inSection lines) ↔ AllInline lines := by
    split
    · next hempty =>
      rw [List.isEmpty_iff.1 hempty]
      unfold AllInline
      decide
    · exact allInline_inSection
  have hend : AllInline ["end"] := by unfold AllInline; decide
  have hheader : Text.IsInline sprite.name → AllInline [codeHeader sprite.name ++ " ="] := fun h ↦
    List.forall_mem_singleton.2 (isInline_codeHeader h)
  rw [spriteSection, allInline_append, allInline_append, allInline_append, allInline_append, hname,
    hbody]
  constructor
  · rintro ⟨⟨⟨⟨hname, hcostume⟩, -⟩, hbody⟩, -⟩
    exact ⟨⟨hname, allInline_costume.1 hcostume⟩, hbody⟩
  · rintro ⟨⟨hname, hcostume⟩, hbody⟩
    exact ⟨⟨⟨⟨hname, allInline_costume.2 hcostume⟩, hheader hname⟩, hbody⟩, hend⟩

/-! ### Declarations -/

/-- A command stays on its line if its words do. -/
theorem isInline_commandLine {word : String} (hword : Text.IsInline word) {words : List String} :
    Text.IsInline (commandLine word words) ↔ ∀ text ∈ words, Text.IsInline text := by
  have hjoin : ∀ (first : String) (rest : List String),
      Text.IsInline (Text.join " " (first :: rest)) ↔
        Text.IsInline first ∧ ∀ text ∈ rest, Text.IsInline text := by
    intro first rest
    induction rest generalizing first with
    | nil => simp [Text.join]
    | cons next rest ih =>
      rw [Text.join_cons_cons, Text.isInline_append, Text.isInline_append, ih next,
        List.forall_mem_cons]
      exact and_congr_left' (and_iff_left (by decide))
  rw [commandLine, hjoin]
  exact and_iff_right hword

/-- The lines of declarations stay on their lines if the names do. -/
theorem allInline_symbolLines {command fallback : String} (hcommand : Text.IsInline command)
    (hfallback : Text.IsTidy fallback) {symbols : List Symbol} :
    AllInline (symbolLines command fallback symbols) ↔
      ∀ s ∈ symbols, Text.IsInline (Text.trim s.name) := by
  simp only [AllInline, symbolLines, List.forall_mem_map, List.mem_mergeSort,
    isInline_commandLine hcommand, List.forall_mem_singleton, Text.isInline_format,
    Text.isInline_nameOr hfallback]

theorem allInline_variableLines {t : Target} :
    AllInline (variableLines t) ↔ ∀ v ∈ t.vars, Text.IsInline (Text.trim v.name) ∧
      (Text.IsInline v.value ∨
        Text.isBlank v.value = false ∧ (Number.parse? v.value).isSome = true) := by
  have hfallback : Text.IsTidy (if t.isStage then "stage_var" else "sprite_var") := by
    split <;> decide
  simp only [AllInline, variableLines, List.forall_mem_map, List.mem_mergeSort,
    isInline_commandLine (by decide : Text.IsInline "make_var"), List.forall_mem_cons,
    List.not_mem_nil, false_implies, implies_true, and_true, Text.isInline_format,
    Text.isInline_nameOr hfallback, isInline_initialValue]

theorem allInline_declarationLines {t : Target} :
    AllInline (declarationLines t) ↔ t.DeclaresInline := by
  have hbroadcasts : AllInline (if t.isStage then
      symbolLines "make_broadcast" SymbolKind.broadcasts.fallbackName t.broadcasts else []) ↔
        (t.isStage = true → ∀ s ∈ t.broadcasts, Text.IsInline (Text.trim s.name)) := by
    split
    · next hstage =>
      rw [allInline_symbolLines (by decide) (by decide)]
      exact ⟨fun h _ ↦ h, fun h ↦ h hstage⟩
    · next hstage => simp [AllInline, hstage]
  rw [declarationLines, allInline_append, allInline_append, allInline_variableLines,
    allInline_symbolLines (by decide) (by decide), hbroadcasts]
  constructor
  · rintro ⟨⟨hvars, hlists⟩, hbroadcasts⟩
    exact ⟨hvars, hlists, hbroadcasts⟩
  · intro h
    exact ⟨⟨h.vars, h.lists⟩, h.broadcasts⟩

/-- A name with a line feed is put in quotes, and breaks its line in two all the same. -/
example : declarationLines { kind := .sprite, name := "Cat", vars := [⟨"v", "x\nshow", "0"⟩] } =
    ["make_var \"x\nshow\" 0"] := by
  decide +kernel

/-! ### Targets and programs -/

/-- With blocks whose texts stay on one line, a line feed in the lines of a target is one in its
declarations. -/
theorem allInline_targetLines {t : Target} (ht : t.Shows Text.IsInline) :
    AllInline (targetLines .builtin t).1 ↔ t.DeclaresInline := by
  have hscripts : AllInline ((scripts .builtin t).run {}).1.flatten := by
    intro line hline
    obtain ⟨script, hscript, hmem⟩ := List.mem_flatten.1 hline
    obtain ⟨depth, word, words, rfl, hword, hwords⟩ :=
      isLineOf_of_mem_scripts Text.isLineKind_isInline Catalog.builtin_isRegular
        Catalog.builtin_isInline ht script hscript line hmem
    refine isInline_indent.2 ((isInline_commandLine ?_).2 hwords)
    rcases Header.builtin_isLead hword with rfl | hlead
    · decide
    · exact Text.isInline_of_isWord (Chars.isWordChar_of_identifier hlead.identifier)
  have hlines : (targetLines .builtin t).1 = dropTrailingBlank
      (((scripts .builtin t).run {}).1.foldl appendScript (declarationLines t)) := rfl
  rw [hlines, ← allInline_inked, inked_dropTrailingBlank, inked_foldl_appendScript,
    allInline_inked, allInline_append, allInline_declarationLines]
  exact and_iff_left hscripts

end Listing

/-- The names and costumes of the sprites stay on one line, and so do all names and initial values
that are declared. -/
structure Program.DeclaresInline (p : Program) : Prop where
  names : ∀ sprite ∈ p.sprites, Text.IsInline sprite.name
  costumes : ∀ sprite ∈ p.sprites, ∀ source ∈ sprite.costume, Text.IsInline source
  targets : ∀ t ∈ p.targets, t.DeclaresInline

namespace Listing

variable {p : Program}

theorem allInline_programLines (hblocks : ∀ t ∈ p.targets, t.Shows Text.IsInline) :
    AllInline (programLines .builtin p) ↔ p.DeclaresInline := by
  have htarget : ∀ t ∈ p.targets, (AllInline (targetLines .builtin t).1 ↔ t.DeclaresInline) :=
    fun t ht ↦ allInline_targetLines (hblocks t ht)
  have hbanner : AllInline banner := by unfold AllInline; decide
  have hsprites : AllInline (p.sprites.flatMap fun sprite ↦
      spriteSection sprite (targetLines .builtin sprite).1) ↔
        ∀ sprite ∈ p.sprites, (Text.IsInline sprite.name ∧
          ∀ source ∈ sprite.costume, Text.IsInline source) ∧ sprite.DeclaresInline := by
    have hsprite : ∀ sprite ∈ p.sprites,
        (AllInline (spriteSection sprite (targetLines .builtin sprite).1) ↔
          (Text.IsInline sprite.name ∧ ∀ source ∈ sprite.costume, Text.IsInline source) ∧
            sprite.DeclaresInline) := fun sprite hmem ↦ by
      rw [allInline_spriteSection, htarget sprite (List.mem_cons_of_mem _ hmem)]
    refine Iff.trans ?_ (forall₂_congr hsprite)
    exact ⟨fun h sprite hmem line hline ↦ h line (List.mem_flatMap.2 ⟨sprite, hmem, hline⟩),
      fun h line hline ↦ by
        obtain ⟨sprite, hmem, hline⟩ := List.mem_flatMap.1 hline
        exact h sprite hmem line hline⟩
  -- the banner and the words around sections have no line feeds, so the other texts decide
  rw [programLines_eq, allInline_append, allInline_append, allInline_stageSection,
    htarget p.stage List.mem_cons_self, hsprites]
  constructor
  · rintro ⟨⟨-, hstage⟩, hsprites⟩
    exact ⟨fun sprite h ↦ (hsprites sprite h).1.1, fun sprite h ↦ (hsprites sprite h).1.2,
      List.forall_mem_cons.2 ⟨hstage, fun sprite h ↦ (hsprites sprite h).2⟩⟩
  · intro h
    refine ⟨⟨hbanner, h.targets p.stage List.mem_cons_self⟩, fun sprite hmem ↦ ?_⟩
    exact ⟨⟨h.names sprite hmem, h.costumes sprite hmem⟩,
      h.targets sprite (List.mem_cons_of_mem _ hmem)⟩

/-- The lines of the text of a listing. -/
def textLines (listing : Listing) : List String :=
  (listing.text.toList.splitOn '\n').map String.ofList

/-- Lines without line feeds are the lines of the text that they are joined to. -/
theorem textLines_ofProgram {catalog : Catalog} (h : AllInline (programLines catalog p)) :
    (ofProgram catalog p).textLines = programLines catalog p := by
  have hlines : ∀ cs ∈ (programLines catalog p).map String.toList, '\n' ∉ cs :=
    List.forall_mem_map.2 h
  have hne : (programLines catalog p).map String.toList ≠ [] := by
    rw [programLines_eq]
    exact nofun
  have hbreak : "\n".toList = ['\n'] := by decide
  rw [textLines, ofProgram, Text.join, String.toList_intercalate, hbreak,
    List.splitOn_intercalate _ hlines hne, List.map_map]
  simp

/-- **The lines of a listing hold no line feed if and only if the declarations of the program hold
none**, as long as its blocks show none, and then they are the lines of the text. -/
theorem isInline_programLines (hblocks : ∀ t ∈ p.targets, t.Shows Text.IsInline) :
    ((∀ line ∈ programLines .builtin p, Text.IsInline line) ↔ p.DeclaresInline) ∧
      (p.DeclaresInline → ((ofProgram .builtin p).text.toList.splitOn '\n').map String.ofList =
        programLines .builtin p) := by
  have hiff := allInline_programLines hblocks
  exact ⟨hiff, fun hdeclares ↦ textLines_ofProgram (hiff.2 hdeclares)⟩

end Listing

/-- Nothing that a program from a source text declares holds a line feed. -/
theorem Compile.declaresInline_of_ofText {text : String} {compiled : Compiled}
    (h : ofText .builtin text = .ok compiled) : compiled.program.DeclaresInline := by
  obtain ⟨outline, houtline, hmade⟩ := Reading.bind_eq_ok.1 h
  have hsound := Outline.isSound_of_ofText houtline
  refine ⟨fun t ht ↦ ?_, fun t ht ↦ ?_, fun t ht ↦ (isInline_of_ofText h t ht).declaresInline⟩
  all_goals obtain ⟨s, hs, hname, hcostume⟩ := exists_section hmade ht
  · exact hname ▸ (hsound.sprites s hs).name.2
  · exact fun source hsource ↦ ((hsound.sprites s hs).costume source (hcostume ▸ hsource)).2

namespace Listing

/-- The text of a program from a source text consists of a banner and the sections of the targets,
line by line. -/
theorem textLines_of_ofText {text : String} {compiled : Compiled}
    (h : Compile.ofText .builtin text = .ok compiled) :
    (ofProgram .builtin compiled.program).textLines =
      banner ++ stageSection (targetLines .builtin compiled.program.stage).1 ++
        compiled.program.sprites.flatMap fun sprite ↦
          spriteSection sprite (targetLines .builtin sprite).1 := by
  have hblocks : ∀ t ∈ compiled.program.targets, t.Shows Text.IsInline := fun t ht ↦
    (Compile.isInline_of_ofText h t ht).shows.mono Text.IsTidy.inline
  rw [textLines_ofProgram ((allInline_programLines hblocks).2 (Compile.declaresInline_of_ofText h)),
    programLines_eq]

/-- A sprite with one block, which has the operation code. -/
def foreignSprite (opcode : String) : Target where
  kind := .sprite
  name := "Cat"
  blocks := (∅ : Dict Block).insert "b" { opcode, place := some ⟨0, 0⟩ }
  costume := some "cat.svg"

/-- A stage with a variable, and a sprite with one block that no command writes. -/
def foreignProgram (opcode : String) : Program where
  stage := { kind := .stage, name := "Stage", vars := [⟨"v", "\nscore ", "0"⟩] }
  sprites := [foreignSprite opcode]
  extensions := []

/-- White space around a name is no matter, and neither is an unknown operation code on one line. -/
theorem isInline_programLines_foreign :
    (∀ t ∈ (foreignProgram "motion_dance").targets, t.Shows Text.IsInline) ∧
      (foreignProgram "motion_dance").DeclaresInline ∧
      (∀ line ∈ programLines .builtin (foreignProgram "motion_dance"), Text.IsInline line) ∧
      ((ofProgram .builtin (foreignProgram "motion_dance")).text.toList.splitOn '\n').map
        String.ofList = programLines .builtin (foreignProgram "motion_dance") := by
  have hblocks : ∀ t ∈ (foreignProgram "motion_dance").targets, t.Shows Text.IsInline := by
    refine List.forall_mem_cons.2 ⟨fun id b hfind ↦ ?_, List.forall_mem_singleton.2
      fun id b hfind ↦ ?_⟩
    · exact absurd (hfind.symm.trans (Dict.find?_empty id)) nofun
    · rw [foreignSprite, Dict.find?_insert, Dict.find?_empty] at hfind
      split at hfind
      · next hid =>
        obtain rfl := Option.some.inj hfind
        refine ⟨?_, by decide, fun name slot h ↦ ?_, fun name field h ↦ ?_, nofun⟩
        · simp only [hid]
          decide
        · exact absurd (h.symm.trans (Dict.find?_empty name)) nofun
        · exact absurd (h.symm.trans (Dict.find?_empty name)) nofun
      · cases hfind
  have hdeclares : (foreignProgram "motion_dance").DeclaresInline := by
    refine ⟨by decide, by decide, List.forall_mem_cons.2 ⟨⟨?_, nofun, nofun⟩,
      List.forall_mem_singleton.2 ⟨nofun, nofun, nofun⟩⟩⟩
    exact List.forall_mem_singleton.2 ⟨by decide, .inl (by decide)⟩
  have hresult := isInline_programLines hblocks
  exact ⟨hblocks, hdeclares, hresult.1.2 hdeclares, hresult.2 hdeclares⟩

end Listing

end BlockScript
