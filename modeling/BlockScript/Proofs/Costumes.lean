import BlockScript.Proofs.Escapes
import BlockScript.Proofs.Project

/-!
# Costumes come back from a project

The costume of a sprite is made from the drawing that its source leads to, and all of it can be made
again from that drawing: the drawing found in a drawing is the drawing itself
(`Drawing.extract_extract`). A project describes the costume and has its drawing as a file, and the
reader of projects finds that file (`Project.find?_filesOf`), so the costume of a sprite comes back
as a data URL with the same costume (`Project.toProgram_ofProgram_worn`).

The two ends do not agree on what a drawing is. A source may write the name of the outer element in
any case, but the reader of projects looks for it in lower case, and passes over a file without.
-/

namespace BlockScript

/-! ### Words regardless of case -/

namespace Drawing

/-- A text is a word, regardless of case. -/
def Spells (word cs : List Char) : Prop :=
  List.Forall₂ (fun letter c ↦ sameLetter letter c = true) word cs

theorem dropWord?_eq_some {word : List Char} : ∀ {cs rest : List Char},
    dropWord? word cs = some rest ↔ ∃ w, Spells word w ∧ cs = w ++ rest := by
  induction word with
  | nil => simp [dropWord?, Spells]
  | cons letter word ih =>
    intro cs rest
    constructor
    · intro h
      match cs with
      | c :: cs =>
        rw [dropWord?] at h
        split at h
        · next hletter =>
          obtain ⟨w, hw, rfl⟩ := ih.1 h
          exact ⟨c :: w, .cons hletter hw, rfl⟩
        · cases h
    · rintro ⟨w, hw, rfl⟩
      obtain ⟨c, tail, hletter, htail, rfl⟩ := List.forall₂_cons_left_iff.1 hw
      rw [List.cons_append, dropWord?, if_pos hletter]
      exact ih.2 ⟨tail, htail, rfl⟩

/-- What a text starts with, it starts with however it goes on. -/
theorem dropWord?_append {word cs rest : List Char} (h : dropWord? word cs = some rest)
    (after : List Char) : dropWord? word (cs ++ after) = some (rest ++ after) := by
  obtain ⟨w, hw, rfl⟩ := dropWord?_eq_some.1 h
  exact dropWord?_eq_some.2 ⟨w, hw, List.append_assoc ..⟩

/-- The first place of a word is still the first when the text ends there. -/
theorem findWord?_cut {letter : Char} {word : List Char} : ∀ {cs start rest : List Char},
    findWord? (letter :: word) cs = some (start, rest) →
      ∃ front w, Spells (letter :: word) w ∧ start = w ++ rest ∧ cs = front ++ start ∧
        findWord? (letter :: word) (front ++ w) = some (w, []) := by
  intro cs
  induction cs with
  | nil => exact fun h ↦ nomatch h
  | cons c cs ih =>
    intro start rest h
    rw [findWord?] at h
    split at h
    · next hdrop =>
      cases h
      obtain ⟨w, hw, heq⟩ := dropWord?_eq_some.1 hdrop
      refine ⟨[], w, hw, heq, rfl, ?_⟩
      obtain ⟨d, w, -, -, rfl⟩ := List.forall₂_cons_left_iff.1 hw
      rw [List.nil_append, findWord?, dropWord?_eq_some.2 ⟨_, hw, (List.append_nil _).symm⟩]
    · next hdrop =>
      obtain ⟨front, w, hw, rfl, rfl, hfind⟩ := ih h
      refine ⟨c :: front, w, hw, rfl, rfl, ?_⟩
      -- the word does not start here in the shorter text, or it would do so in the longer one
      have hnone : dropWord? (letter :: word) (c :: (front ++ w)) = none := by
        refine Option.eq_none_iff_forall_ne_some.2 fun found hfound ↦ ?_
        have := dropWord?_append hfound rest
        rw [List.cons_append, List.append_assoc, hdrop] at this
        cases this
      rw [List.cons_append, findWord?, hnone, hfind]

/-- White space has no case. -/
theorem isWhite_of_sameLetter {letter c : Char} (hletter : Text.isWhite letter = false)
    (h : sameLetter letter c = true) : Text.isWhite c = false := by
  by_contra hwhite
  rw [Bool.not_eq_false] at hwhite
  have hcode := hwhite
  simp only [Text.isWhite, Bool.or_eq_true, Bool.and_eq_true, decide_eq_true_eq, beq_iff_eq]
    at hcode
  have hlower : Text.asciiLowerChar c = c := by
    refine if_neg fun hupper ↦ ?_
    have hle : 65 ≤ c.toNat ∧ c.toNat ≤ 90 := hupper
    omega
  simp only [sameLetter, hlower, Bool.or_eq_true, Bool.and_eq_true, beq_iff_eq] at h
  rcases h with rfl | ⟨-, hlong⟩
  · rw [hletter] at hwhite
    cases hwhite
  · omega

theorem Spells.isWhite {word cs : List Char} (h : Spells word cs)
    (hword : word.any Text.isWhite = false) : ∀ c ∈ cs, Text.isWhite c = false := by
  unfold Spells at h
  induction h with
  | nil => exact fun c hc ↦ absurd hc List.not_mem_nil
  | cons hletter _ ih =>
    rw [List.any_cons, Bool.or_eq_false_iff] at hword
    exact List.forall_mem_cons.2 ⟨isWhite_of_sameLetter hword.1 hletter, ih hword.2⟩

theorem Spells.ne_nil {word cs : List Char} (h : Spells word cs) (hword : word ≠ []) : cs ≠ [] := by
  rintro rfl
  exact hword (List.forall₂_nil_right_iff.1 h)

/-! ### Drawings -/

/-- A text from a start of a drawing to the first end after it holds nothing else. -/
theorem extract_ofList {first body last : List Char} (hfirst : Spells "<svg".toList first)
    (hlast : Spells "</svg>".toList last)
    (hend : findWord? "</svg>".toList (body ++ last) = some (last, [])) :
    extract (String.ofList (first ++ (body ++ last))) =
      .ok (String.ofList (first ++ (body ++ last))) := by
  have htrim : Chars.trim (first ++ (body ++ last)) = first ++ (body ++ last) := by
    refine Chars.trim_eq_self (fun c hc ↦ hfirst.isWhite (by decide) c ?_)
      (fun c hc ↦ hlast.isWhite (by decide) c ?_)
    · rw [List.head?_append_of_ne_nil _ (hfirst.ne_nil (by decide))] at hc
      exact List.mem_of_mem_head? hc
    · rw [← List.append_assoc, List.getLast?_append_of_ne_nil _ (hlast.ne_nil (by decide))] at hc
      exact List.mem_of_mem_getLast? hc
  have hstart : findWord? "<svg".toList (first ++ (body ++ last)) =
      some (first ++ (body ++ last), body ++ last) := by
    have hdrop := dropWord?_eq_some.2 ⟨first, hfirst, (rfl : first ++ (body ++ last) = _)⟩
    obtain ⟨c, front, -, -, rfl⟩ := List.forall₂_cons_left_iff.1 hfirst
    rw [List.cons_append] at hdrop ⊢
    rw [findWord?, hdrop]
  unfold extract
  simp only [Text.trim, String.toList_ofList, htrim]
  split
  · rfl
  · simp only [hstart, hend, Option.bind_eq_bind, Option.bind_some, List.length_nil, Nat.sub_zero,
      List.take_length, Option.pure_def]

/-- The drawing found in a drawing is the drawing itself. -/
theorem extract_extract {text markup : String} (h : extract text = .ok markup) :
    extract markup = .ok markup := by
  unfold extract at h
  simp only at h
  split at h
  · next hwhole =>
    obtain rfl := Except.ok.inj h
    have htrim : Text.trim (Text.trim text) = Text.trim text := by
      simp [Text.trim]
    unfold extract
    simp only [htrim, if_pos hwhole]
  · split at h
    · next found hfound =>
      obtain rfl := Except.ok.inj h
      simp only [Option.bind_eq_bind, Option.bind_eq_some_iff, Prod.exists, Option.pure_def,
        Option.some.injEq] at hfound
      -- the cut runs from the first start to the first end behind it, and both are found again
      obtain ⟨start, inner, hstart, ending, rest, hending, rfl⟩ := hfound
      obtain ⟨-, first, hfirst, rfl, -, -⟩ := findWord?_cut hstart
      obtain ⟨body, last, hlast, rfl, rfl, hend⟩ := findWord?_cut hending
      have hcut : (first ++ (body ++ (last ++ rest))).take
          ((first ++ (body ++ (last ++ rest))).length - rest.length) = first ++ (body ++ last) := by
        have hsame : first ++ (body ++ (last ++ rest)) = (first ++ (body ++ last)) ++ rest := by
          simp only [List.append_assoc]
        rw [hsame, List.length_append, Nat.add_sub_cancel, List.take_left]
      rw [hcut]
      exact extract_ofList hfirst hlast hend
    · cases h

end Drawing

/-! ### Costumes -/

namespace Costume

/-- The costume of a text is the costume of its drawing. -/
theorem ofText_markup {text : String} {c : Costume} (h : ofText text = .ok c) :
    ofText c.markup = .ok c := by
  unfold ofText at h ⊢
  cases hmarkup : Drawing.extract text with
  | error e =>
    rw [hmarkup] at h
    cases h
  | ok markup =>
    rw [hmarkup] at h
    obtain rfl := Except.ok.inj h
    show (Drawing.extract markup).map ofMarkup = .ok (ofMarkup markup)
    rw [Drawing.extract_extract hmarkup]
    rfl

theorem ofText_ne_blank {source : String} (h : Text.isBlank source = false) :
    Source.ofText source ≠ .blank := by
  obtain ⟨c, hc, hwhite⟩ : ∃ c ∈ source.toList, Text.isWhite c = false := by
    simpa [Text.isBlank] using h
  have hmem : c ∈ Chars.trim source.toList :=
    Chars.mem_trimEnd (Chars.mem_trimStart hc hwhite) hwhite
  have hempty : (Text.trim source).isEmpty = false := by
    rw [Text.trim]
    simpa using List.ne_nil_of_mem hmem
  simp only [Source.ofText, hempty, Bool.false_eq_true, if_false]
  split
  · exact Source.noConfusion
  · split
    · exact Source.noConfusion
    · split <;> exact Source.noConfusion

/-- The costume of a source that is not blank is the costume of its drawing. -/
theorem ofText_markup_of_resolve (fetch : Option (FileReader Id)) {source : String} {c : Costume}
    (hsource : Text.isBlank source = false) (h : Id.run (resolve fetch source) = .ok c) :
    ofText c.markup = .ok c := by
  have hbind : ∀ found : Except CostumeError String, (found >>= ofText) = .ok c →
      ofText c.markup = .ok c := by
    rintro (e | text) hfound
    · simp only [bind, Except.bind, reduceCtorEq] at hfound
    · exact ofText_markup (by simpa only [bind, Except.bind] using hfound)
  cases hkind : Source.ofText source with
  | blank => exact absurd hkind (ofText_ne_blank hsource)
  | dataUrl url =>
    simp only [resolve, hkind, Id.run_pure] at h
    exact hbind _ h
  | inline text =>
    simp only [resolve, hkind, Id.run_pure] at h
    exact ofText_markup h
  | remote => simp only [resolve, hkind, Id.run_pure, reduceCtorEq] at h
  | file path =>
    cases fetch with
    | none => simp only [resolve, hkind, Id.run_pure, reduceCtorEq] at h
    | some fetch =>
      simp only [resolve, hkind, Id.run_bind, Id.run_pure] at h
      exact hbind _ h

end Costume

/-! ### Projects -/

namespace Project

theorem isDrawing_costumeJson (c : Costume) (name : String) :
    isDrawing (costumeJson c name) = true := by
  have hformat : (costumeJson c name).getStr? "dataFormat" = some "svg" := by
    simp [costumeJson, Json.getStr?, Json.get?_object, Dict.lookup]
  have hfile : (costumeJson c name).getStr? "md5ext" = some c.fileName := by
    simp [costumeJson, Json.getStr?, Json.get?_object, Dict.lookup]
  have hlast : Text.endsWith (Text.asciiLower c.fileName) ".svg" = true := by
    have hname : (Text.asciiLower c.fileName).toList =
        c.assetId.toList.map Text.asciiLowerChar ++ ".svg".toList := by
      rw [Text.asciiLower, String.toList_ofList, Costume.fileName, String.toList_append,
        List.map_append]
      rfl
    rw [Text.endsWith, hname, List.isSuffixOf_iff_suffix]
    exact List.suffix_append _ _
  simp only [isDrawing, hformat, hfile, Option.getD_some, hlast, Bool.and_true]
  decide

/-- A described costume has the file of its name. -/
theorem costumeFile?_costumeJson {files : Files} {c : Costume} {bytes : List UInt8}
    (h : files.find? c.fileName = some bytes) (name : String) :
    costumeFile? files (costumeJson c name) = some bytes := by
  have hfile : (costumeJson c name).getStr? "md5ext" = some c.fileName := by
    simp [costumeJson, Json.getStr?, Json.get?_object, Dict.lookup]
  rw [costumeFile?, hfile, Option.getD_some, h, Option.some_or]

/-- Of two costumes with one file name the last has its drawing there. -/
theorem find?_filesOf (front : List Costume) (c : Costume) :
    (filesOf (front ++ [c])).find? c.fileName = some (Text.utf8 c.markup) := by
  rw [filesOf, List.map_append, List.map_singleton, Dict.ofList_append_singleton,
    Dict.find?_insert_self]

/-- The source of a costume that is read back: the data URL of its drawing, if the start of a
drawing stands there in lower case. -/
def wornSource? (c : Costume) : Option String :=
  if Text.contains c.markup "<svg" then some (DataUrl.ofMarkup c.markup) else none

theorem costumeSource?_spriteJson {files : Files} {c : Costume}
    (h : files.find? c.fileName = some (Text.utf8 c.markup)) (t : Target) (layer : Nat) :
    costumeSource? files (spriteJson t c layer) = wornSource? c := by
  have hcostumes : (spriteJson t c layer).getArr? "costumes" = some [costumeJson c "costume1"] := by
    simp [spriteJson, targetFields, Json.getArr?, Json.get?_object, Dict.lookup]
  have hfind : [costumeJson c "costume1"].find? isDrawing = some (costumeJson c "costume1") := by
    rw [List.find?_singleton, if_pos (isDrawing_costumeJson c _)]
  simp only [costumeSource?, hcostumes, Option.bind_eq_bind, Option.bind_some, hfind,
    costumeFile?_costumeJson h, Text.ofUtf8?_utf8, Option.pure_def, wornSource?]

/-- A described target is read, with its name and kind. -/
theorem readTarget_of_describesTarget (files : Files) {raw : Json} {t : Target}
    (hraw : DescribesTarget raw t) :
    ∃ found, readTarget files raw = .ok found ∧ found.name = t.name ∧ found.isStage = t.isStage ∧
      found.costume = if t.isStage then none else costumeSource? files raw := by
  unfold readTarget
  simp only [hraw.name, hraw.isStage, hraw.blocks, Option.getD_some]
  refine ⟨_, rfl, rfl, ?_, rfl⟩
  unfold Target.isStage
  cases t.kind <;> rfl

/-- **The costume of a sprite comes back from its project.** The sprite has a source again, which
has the same costume wherever files are looked for, if the start of a drawing stands in the drawing
in lower case, and no source if it does not. -/
theorem toProgram_ofProgram_worn (fetch : Option (Costume.FileReader Id)) {program : Program}
    {sprite : Target} {source : String} {costume : Costume}
    (hstage : program.stage.kind = .stage) (hsprites : program.sprites = [sprite])
    (hsprite : sprite.kind = .sprite) (hworn : sprite.costume = some source)
    (hsource : Text.isBlank source = false)
    (hcostume : Id.run (Costume.resolve fetch source) = .ok costume) :
    ∃ decoded worn,
      toProgram (Id.run (ofProgram fetch program)).document
          (Id.run (ofProgram fetch program)).files = .ok decoded ∧
        decoded.sprites = [worn] ∧ worn.name = sprite.name ∧
        worn.costume = wornSource? costume ∧
        ∀ (m : Type → Type) [Monad m] (fetch' : Option (Costume.FileReader m)),
          Costume.resolve fetch' (DataUrl.ofMarkup costume.markup) = pure (.ok costume) := by
  have hproject : Id.run (ofProgram fetch program) = ofCostumes program [costume] [] := by
    simp [ofProgram, hsprites, costumeOf, hworn, hcostume]
  have hfiles : (filesOf [Costume.stage, costume]).find? costume.fileName =
      some (Text.utf8 costume.markup) :=
    find?_filesOf [Costume.stage] costume
  obtain ⟨stage, hreadStage, -, hisStage, -⟩ := readTarget_of_describesTarget
    (filesOf [Costume.stage, costume]) (describes_stageJson program.stage)
  obtain ⟨worn, hreadWorn, hname, hisSprite, hsource'⟩ := readTarget_of_describesTarget
    (filesOf [Costume.stage, costume]) (describes_spriteJson sprite costume 1)
  have htargets : (documentOf program [costume]).getArr? "targets" =
      some [stageJson program.stage, spriteJson sprite costume 1] := by
    simp [documentOf, hsprites, Json.getArr?, Json.get?_object, Dict.lookup]
  -- which of the two targets is the sprite is read from their descriptions
  have hstage' : stage.isStage = true := by
    rw [hisStage, Target.isStage, hstage]
    rfl
  have hworn' : sprite.isStage = false := by
    rw [Target.isStage, hsprite]
    rfl
  have hdecoded : ∃ decoded, toProgram (documentOf program [costume])
      (filesOf [Costume.stage, costume]) = .ok decoded ∧ decoded.sprites = [worn] := by
    unfold toProgram
    simp only [htargets, List.mapM_cons, List.mapM_nil, hreadStage, hreadWorn, bind, Except.bind,
      pure, Except.pure]
    exact ⟨_, rfl, by simp [hstage', hworn', hisSprite]⟩
  obtain ⟨decoded, hread, hdecodedSprites⟩ := hdecoded
  rw [hproject]
  refine ⟨decoded, worn, hread, hdecodedSprites, hname, ?_, fun m _ fetch' ↦ ?_⟩
  · rw [hsource', hworn', if_neg Bool.false_ne_true, costumeSource?_spriteJson hfiles]
  · rw [Costume.resolve_ofMarkup, Costume.ofText_markup_of_resolve fetch hsource hcostume]

/-- A sprite whose source is a data URL with more than a drawing in it. -/
def sampleWearer : Target where
  kind := .sprite
  name := "Cat"
  costume := some " data:image/svg+xml,logo: %3Csvg width='40'%3E%3C/svg%3E "

/-- A program with the sprite. -/
def sampleDressed : Program where
  stage := { kind := .stage, name := "Stage" }
  sprites := [sampleWearer]
  extensions := []

theorem toProgram_ofProgram_sampleDressed :
    ∃ decoded worn,
      toProgram (Id.run (ofProgram none sampleDressed)).document
          (Id.run (ofProgram none sampleDressed)).files = .ok decoded ∧
        decoded.sprites = [worn] ∧ worn.name = "Cat" ∧
        worn.costume = some "data:image/svg+xml;utf8,%3Csvg%20width%3D'40'%3E%3C%2Fsvg%3E" ∧
        ∀ (m : Type → Type) [Monad m] (fetch' : Option (Costume.FileReader m)),
          Costume.resolve fetch' "data:image/svg+xml;utf8,%3Csvg%20width%3D'40'%3E%3C%2Fsvg%3E" =
            pure (.ok (Costume.ofMarkup "<svg width='40'></svg>")) := by
  have hsource : wornSource? (Costume.ofMarkup "<svg width='40'></svg>") =
      some "data:image/svg+xml;utf8,%3Csvg%20width%3D'40'%3E%3C%2Fsvg%3E" := by
    decide +kernel
  have hurl : DataUrl.ofMarkup "<svg width='40'></svg>" =
      "data:image/svg+xml;utf8,%3Csvg%20width%3D'40'%3E%3C%2Fsvg%3E" := by
    decide +kernel
  have hsprites : sampleDressed.sprites = [sampleWearer] := rfl
  have hworn : sampleWearer.costume =
      some " data:image/svg+xml,logo: %3Csvg width='40'%3E%3C/svg%3E " := rfl
  have hcostume : Id.run (Costume.resolve none
      " data:image/svg+xml,logo: %3Csvg width='40'%3E%3C/svg%3E ") =
        .ok (Costume.ofMarkup "<svg width='40'></svg>") := by
    decide +kernel
  rw [← hsource, ← hurl]
  exact toProgram_ofProgram_worn none rfl hsprites rfl hworn (by decide) hcostume

/-- A drawing in capital letters has a costume, but not after it was in a project. -/
example : Drawing.extract "<SVG></SVG>" = .ok "<SVG></SVG>" ∧
    wornSource? (Costume.ofMarkup "<SVG></SVG>") = none := by
  decide +kernel

end Project

end BlockScript
