import Mathlib.Data.List.Nodup
import BlockScript.Proofs.Outlined

/-!
# Every line has its place

What a line of a text is follows from the lines before it (`Outline.Scene.role`): it is passed over,
it is a header, it closes the open section, or it is code of the stage or of one sprite. A scene
knows the sprites by their keys and never counts them, so it does not change when a sprite is
written in another casing or when the list of sprites grows.

The outline of a text holds each line of code once, in the section of the one it belongs to, and
nothing else (`Outline.isDivision_of_ofText`). A reader stands in a scene (`Outline.Reader.Stands`).
With every line it takes it moves on to the next scene, and each section gets what the scene says.
-/

namespace BlockScript

namespace Outline

/-! ### Roles of lines -/

/-- Whom lines belong to. A sprite is known by its key, the lower-case form of its name. -/
inductive Holder where
  | stage
  | sprite (key : String)
deriving DecidableEq, Repr

/-- What a line of a text is. -/
inductive Role where
  /-- A blank line or a comment between sections. -/
  | idle
  /-- A header or an assignment between sections. -/
  | header (header : Header)
  /-- The `end` of the open section. -/
  | closing
  /-- A line in a section that is not indented. No text with an outline has one. -/
  | stray
  /-- A line of the stage or of a sprite. -/
  | code (holder : Holder)
deriving DecidableEq, Repr

/-- The key of the sprite that a header names. -/
def mentionKey (name : String) : String :=
  Text.lower (Text.nameOr name Header.defaultSprite)

/-- Where in a text a line stands. -/
structure Scene where
  /-- The key of the active sprite. -/
  active : String := Text.lower Header.defaultSprite
  /-- Whose section is open, with the indentation of its header. -/
  opened? : Option (Holder × Nat) := none
deriving DecidableEq, Repr

namespace Scene

/-- What the next line is. -/
def role (scene : Scene) (text : String) : Role :=
  match scene.opened? with
  | none =>
    if isIdle text then .idle
    else match Header.parse? (Chars.trim text.toList) with
      | some header => .header header
      | none => .code (.sprite scene.active)
  | some (holder, indent) =>
    if indent < Token.indentWidth text then .code holder
    else if Chars.trim text.toList = "end".toList then .closing
    else if isIdle text then .code holder
    else .stray

/-- The scene after a header with some indentation. -/
def follow (scene : Scene) (indent : Nat) : Header → Scene
  | .stageCode => { scene with opened? := some (.stage, indent) }
  | .spriteName name => { scene with active := mentionKey name }
  | .costume _ => scene
  | .spriteCode name => { scene with opened? := some (.sprite (mentionKey name), indent) }

/-- The scene after a line. -/
def after (scene : Scene) (text : String) : Scene :=
  match scene.role text with
  | .header header => scene.follow (Token.indentWidth text) header
  | .closing => { scene with opened? := none }
  | .idle | .stray | .code _ => scene

/-- The lines with what each of them is. -/
def marked (scene : Scene) : List SourceLine → List (SourceLine × Role)
  | [] => []
  | line :: lines => (line, scene.role line.text) :: (scene.after line.text).marked lines

/-- Marking lines leaves the lines as they are. -/
theorem map_fst_marked (scene : Scene) (lines : List SourceLine) :
    (scene.marked lines).map Prod.fst = lines := by
  induction lines generalizing scene with
  | nil => rfl
  | cons line lines ih => exact congrArg (line :: ·) (ih _)

end Scene

/-- The code of a holder among marked lines. -/
def codeOf (holder : Holder) (marks : List (SourceLine × Role)) : List SourceLine :=
  (marks.filter fun mark ↦ mark.2 = .code holder).map Prod.fst

/-- A line is code of a holder if it is marked so. -/
theorem mem_codeOf {holder : Holder} {marks : List (SourceLine × Role)} {line : SourceLine} :
    line ∈ codeOf holder marks ↔ (line, .code holder) ∈ marks := by
  simp [codeOf]

/-- The code of marked lines is that of the first and of the rest. -/
theorem codeOf_cons (holder : Holder) (mark : SourceLine × Role)
    (marks : List (SourceLine × Role)) :
    codeOf holder (mark :: marks) = codeOf holder [mark] ++ codeOf holder marks := by
  rw [codeOf, ← List.singleton_append, List.filter_append, List.map_append]
  rfl

/-- A line of code belongs to its holder only. -/
theorem codeOf_code (holder other : Holder) (line : SourceLine) :
    codeOf holder [(line, .code other)] = if holder = other then [line] else [] := by
  by_cases h : holder = other
  · simp [codeOf, h]
  · simp [codeOf, h, Ne.symm h]

/-- A line that is no code belongs to nobody. -/
theorem codeOf_eq_nil (holder : Holder) {line : SourceLine} {role : Role}
    (h : ∀ other, role ≠ .code other) : codeOf holder [(line, role)] = [] := by
  simp [codeOf, h holder]

/-! ### Sections of an outline -/

/-- All lists of lines in an outline: that of the stage and those of the sprites. -/
def lineSets (o : Outline) : List (List SourceLine) :=
  o.stage :: o.sprites.map SpriteSection.lines

/-- What a section has for a key: its lines if the key is that of the sprite. -/
def linesUnder (key : String) (s : SpriteSection) : List SourceLine :=
  if Text.lower s.name = key then s.lines else []

/-- The lines of a holder in an outline. -/
def linesOf (o : Outline) : Holder → List SourceLine
  | .stage => o.stage
  | .sprite key => o.sprites.flatMap (linesUnder key)

/-- The lines of a holder are among the lists of the outline. -/
theorem linesOf_subset (o : Outline) (holder : Holder) : o.linesOf holder ⊆ o.lineSets.flatten := by
  intro line hline
  rw [lineSets, List.flatten_cons]
  cases holder with
  | stage => exact List.mem_append_left _ hline
  | sprite key =>
    obtain ⟨s, hs, hline⟩ := List.mem_flatMap.1 (hline : line ∈ o.sprites.flatMap (linesUnder key))
    have hlines : line ∈ s.lines := by
      rw [linesUnder] at hline
      split at hline
      · exact hline
      · exact absurd hline List.not_mem_nil
    exact List.mem_append_right _ (List.mem_flatten.2 ⟨s.lines, List.mem_map_of_mem hs, hlines⟩)

/-- Where no two sections are for one sprite, a section has all the lines of its sprite. -/
theorem flatMap_linesUnder {sprites : List SpriteSection} (h : (keys sprites).Nodup)
    {s : SpriteSection} (hs : s ∈ sprites) :
    sprites.flatMap (linesUnder (Text.lower s.name)) = s.lines := by
  induction sprites with
  | nil => exact absurd hs List.not_mem_nil
  | cons t sprites ih =>
    obtain ⟨hnew, hnodup⟩ := List.nodup_cons.1 (h : (Text.lower t.name :: keys sprites).Nodup)
    rw [List.flatMap_cons]
    rcases List.mem_cons.1 hs with rfl | hs
    · have hothers : sprites.flatMap (linesUnder (Text.lower s.name)) = [] := by
        refine List.flatMap_eq_nil_iff.2 fun t ht ↦ if_neg fun hkey ↦ hnew ?_
        exact List.mem_map.2 ⟨t, ht, hkey⟩
      rw [hothers, linesUnder, if_pos rfl, List.append_nil]
    · have hother : linesUnder (Text.lower s.name) t = [] :=
        if_neg fun hkey ↦ hnew (List.mem_map.2 ⟨s, hs, hkey.symm⟩)
      rw [hother, List.nil_append, ih hnodup hs]

/-- A change of one section is not seen under a key if its lines there stay the same. -/
theorem flatMap_linesUnder_modify {sprites : List SpriteSection} {key : String} {i : Nat}
    {f : SpriteSection → SpriteSection}
    (h : ∀ s, sprites[i]? = some s → linesUnder key (f s) = linesUnder key s) :
    (sprites.modify i f).flatMap (linesUnder key) = sprites.flatMap (linesUnder key) := by
  rw [List.flatMap_def, List.flatMap_def, map_modify_eq_map h]

/-! ### Readers in scenes -/

/-- The holder of a section that is known by its position. -/
def Owner.holder? (keys : List String) : Owner → Option Holder
  | .stage => some .stage
  | .sprite i => keys[i]?.map .sprite

/-- The holder at a position stays when more keys follow. -/
theorem Owner.holder?_of_isPrefix {keys more : List String} (h : keys <+: more) {owner : Owner}
    {holder : Holder} (hholder : owner.holder? keys = some holder) :
    owner.holder? more = some holder := by
  cases owner with
  | stage => exact hholder
  | sprite i =>
    obtain ⟨key, hkey, rfl⟩ := Option.map_eq_some_iff.1 hholder
    obtain ⟨rest, rfl⟩ := h
    have hlt := (List.getElem?_eq_some_iff.1 hkey).1
    rw [holder?, List.getElem?_append_left hlt, hkey]
    rfl

namespace Reader

variable {r r' : Reader} {scene : Scene} {line : SourceLine}

/-- What was read so far. -/
def soFar (r : Reader) : Outline :=
  ⟨r.stage, r.sprites⟩

/-- The positions that the reader keeps are those of the sprites that the scene knows by key. -/
structure Stands (r : Reader) (scene : Scene) : Prop where
  active : (keys r.sprites)[r.active]? = some scene.active
  between : r.open? = none → scene.opened? = none
  inside : ∀ opened, r.open? = some opened → ∃ holder,
    opened.owner.holder? (keys r.sprites) = some holder ∧
      scene.opened? = some (holder, opened.indent)

/-- In the beginning both know the default sprite. -/
theorem stands_start : Stands {} {} where
  active := rfl
  between := fun _ ↦ rfl
  inside := nofun

/-- New sprites come last, so the positions stay right. -/
theorem Stands.mono (h : r.Stands scene) (hkeys : keys r.sprites <+: keys r'.sprites)
    (hactive : r'.active = r.active) (hopen : r'.open? = r.open?) : r'.Stands scene where
  active := by
    rw [hactive]
    obtain ⟨rest, hrest⟩ := hkeys
    rw [← hrest, List.getElem?_append_left (List.getElem?_eq_some_iff.1 h.active).1]
    exact h.active
  between := fun hnone ↦ h.between (hopen ▸ hnone)
  inside := fun opened hopened ↦ by
    obtain ⟨holder, hholder, hscene⟩ := h.inside opened (hopen ▸ hopened)
    exact ⟨holder, Owner.holder?_of_isPrefix hkeys hholder, hscene⟩

/-! ### Adding a line -/

/-- An added line changes no key. -/
theorem keys_addLine (r : Reader) (owner : Owner) (line : SourceLine) :
    keys (r.addLine owner line).sprites = keys r.sprites := by
  cases owner with
  | stage => rfl
  | sprite i => exact map_modify_eq_map fun _ _ ↦ rfl

/-- An added line changes no position. -/
theorem Stands.addLine (h : r.Stands scene) (owner : Owner) (line : SourceLine) :
    (r.addLine owner line).Stands scene :=
  h.mono (keys_addLine r owner line ▸ List.prefix_rfl) (active_addLine r owner line)
    (open?_addLine r owner line)

/-- A line that is added goes to its holder and to no other. -/
theorem linesOf_addLine (hr : (keys r.sprites).Nodup) {owner : Owner} {holder : Holder}
    (howner : owner.holder? (keys r.sprites) = some holder) (line : SourceLine) (other : Holder) :
    (r.addLine owner line).soFar.linesOf other =
      r.soFar.linesOf other ++ codeOf other [(line, .code holder)] := by
  rw [codeOf_code]
  cases owner with
  | stage =>
    obtain rfl := Option.some.inj howner
    cases other with
    | stage => rfl
    | sprite key => exact (List.append_nil _).symm
  | sprite i =>
    obtain ⟨key, hkey, rfl⟩ := Option.map_eq_some_iff.1 howner
    obtain ⟨s, hs, rfl⟩ : ∃ s, r.sprites[i]? = some s ∧ Text.lower s.name = key := by
      simpa [keys] using hkey
    cases other with
    | stage => exact (List.append_nil _).symm
    | sprite key =>
      by_cases hsame : key = Text.lower s.name
      · subst hsame
        -- The changed section is the only one with the key, before and after the change.
        have hmem : { s with lines := s.lines ++ [line] } ∈
            (r.addLine (.sprite i) line).sprites := by
          refine List.mem_of_getElem? (i := i) ?_
          simp [Reader.addLine, hs]
        have hnodup : (keys (r.addLine (.sprite i) line).sprites).Nodup := by
          rw [keys_addLine]
          exact hr
        show (r.addLine (.sprite i) line).sprites.flatMap _ = r.sprites.flatMap _ ++ _
        rw [flatMap_linesUnder hr (List.mem_of_getElem? hs), if_pos rfl]
        exact flatMap_linesUnder hnodup hmem
      · rw [if_neg (by simpa using hsame), List.append_nil]
        refine flatMap_linesUnder_modify fun t ht ↦ ?_
        obtain rfl := Option.some.inj (ht.symm.trans hs)
        simp [linesUnder, Ne.symm hsame]

/-! ### Following a header -/

/-- A mention adds no line, finds the sprite by its key, and leaves all others where they are. -/
structure Mentions (r : Reader) (name : String) (r' : Reader) (i : Nat) : Prop where
  keys : keys r.sprites <+: keys r'.sprites
  position : (Outline.keys r'.sprites)[i]? = some (mentionKey name)
  linesOf : ∀ holder, r'.soFar.linesOf holder = r.soFar.linesOf holder
  active : r'.active = r.active
  open? : r'.open? = r.open?

/-- A mention does what it should, whether the sprite is new or known. -/
theorem mentions_mention (r : Reader) (name : String) :
    Mentions r name (r.mention name).1 (r.mention name).2.2 := by
  have hkey : mentionKey name = Text.lower (Text.nameOr name Header.defaultSprite) := rfl
  have hcases := r.mention_cases name
  generalize Text.nameOr name Header.defaultSprite = final at hkey hcases
  rcases hcases with ⟨i, hplace, heq⟩ | ⟨hnew, heq⟩ <;> rw [heq] <;> dsimp only
  · have hkeys := keys_rename hplace
    refine ⟨?_, ?_, fun holder ↦ ?_, rfl, rfl⟩
    · rw [hkeys]
    · rw [hkeys, hkey, hplace]
    · cases holder with
      | stage => rfl
      | sprite key =>
        refine flatMap_linesUnder_modify fun s hs ↦ ?_
        rw [linesUnder, linesUnder, ← lower_name_of_keys hplace hs]
  · refine ⟨?_, ?_, fun holder ↦ ?_, rfl, rfl⟩
    · rw [keys_append_singleton]
      exact List.prefix_append _ _
    · rw [keys_append_singleton, hkey]
      simp [Outline.keys]
    · cases holder with
      | stage => rfl
      | sprite key => simp [soFar, Outline.linesOf, linesUnder]

/-- A header with a name makes its sprite the active one. -/
theorem follow_spriteName (r : Reader) (line indent : Nat) (name : String) :
    r.follow line indent (.spriteName name) =
      { (r.mention name).1 with active := (r.mention name).2.2 } :=
  rfl

/-- A header with a name and code makes its sprite active and opens a section for it. -/
theorem follow_spriteCode (r : Reader) (line indent : Nat) (name : String) :
    r.follow line indent (.spriteCode name) =
      { (r.mention name).1 with
        open? :=
          some ⟨.sprite (r.mention name).2.2, indent, (r.mention name).2.1 ++ "_code", line⟩ } :=
  rfl

/-- A header leads to the scene after it. -/
theorem Stands.follow (h : r.Stands scene) (line indent : Nat) (header : Header) :
    (r.follow line indent header).Stands (scene.follow indent header) := by
  cases header with
  | stageCode => exact ⟨h.active, nofun, fun opened hopened ↦ by
      obtain rfl := Option.some.inj hopened
      exact ⟨.stage, rfl, rfl⟩⟩
  | spriteName name =>
    have hmentions := mentions_mention r name
    rw [follow_spriteName]
    generalize r.mention name = found at hmentions
    have hstands := h.mono hmentions.keys hmentions.active hmentions.open?
    show Stands _ ⟨mentionKey name, scene.opened?⟩
    exact ⟨hmentions.position, hstands.between, hstands.inside⟩
  | costume source =>
    have hkeys : keys (r.follow line indent (.costume source)).sprites = keys r.sprites :=
      map_modify_eq_map fun _ _ ↦ rfl
    exact h.mono (hkeys ▸ List.prefix_rfl) rfl rfl
  | spriteCode name =>
    have hmentions := mentions_mention r name
    rw [follow_spriteCode]
    generalize r.mention name = found at hmentions
    have hstands := h.mono hmentions.keys hmentions.active hmentions.open?
    show Stands _ ⟨scene.active, some (.sprite (mentionKey name), indent)⟩
    -- the section that opens is that of the sprite just mentioned
    refine ⟨hstands.active, nofun, fun opened hopened ↦ ?_⟩
    obtain rfl := Option.some.inj hopened
    refine ⟨.sprite (mentionKey name), ?_, rfl⟩
    rw [Owner.holder?, hmentions.position]
    rfl

/-- A header adds no line to anyone. -/
theorem linesOf_follow (r : Reader) (line indent : Nat) (header : Header) (holder : Holder) :
    (r.follow line indent header).soFar.linesOf holder = r.soFar.linesOf holder := by
  cases header with
  | stageCode => rfl
  | spriteName name =>
    rw [follow_spriteName]
    exact (mentions_mention r name).linesOf holder
  | spriteCode name =>
    rw [follow_spriteCode]
    exact (mentions_mention r name).linesOf holder
  | costume source =>
    cases holder with
    | stage => rfl
    | sprite key => exact flatMap_linesUnder_modify fun _ _ ↦ rfl

/-! ### Runs -/

/-- One reader comes from another by reading marked lines: each holder gets its code, and no line
is stray. -/
structure Takes (r : Reader) (marks : List (SourceLine × Role)) (r' : Reader) : Prop where
  linesOf : ∀ holder, r'.soFar.linesOf holder = r.soFar.linesOf holder ++ codeOf holder marks
  stray : ∀ mark ∈ marks, mark.2 ≠ .stray

/-- A line that is no code leaves all lines where they are. -/
theorem Takes.of_linesOf {role : Role} (hcode : ∀ holder, role ≠ .code holder)
    (hstray : role ≠ .stray)
    (h : ∀ holder, r'.soFar.linesOf holder = r.soFar.linesOf holder) :
    r.Takes [(line, role)] r' where
  linesOf := fun holder ↦ by rw [codeOf_eq_nil holder hcode, List.append_nil, h holder]
  stray := List.forall_mem_singleton.2 hstray

/-- An added line is taken as code of its holder. -/
theorem Takes.addLine (hr : (keys r.sprites).Nodup) {owner : Owner} {holder : Holder}
    (howner : owner.holder? (keys r.sprites) = some holder) :
    r.Takes [(line, .code holder)] (r.addLine owner line) where
  linesOf := linesOf_addLine hr howner line
  stray := List.forall_mem_singleton.2 nofun

/-- In an open section, only what is indented or idle belongs to it. -/
theorem step_opened {opened : OpenSection} (hr : r.open? = some opened) :
    r.step line =
      if opened.indent < Token.indentWidth line.text then .ok (r.addLine opened.owner line)
      else if Chars.trim line.text.toList = "end".toList then .ok { r with open? := none }
      else if isIdle line.text then .ok (r.addLine opened.owner line)
      else .error ⟨line.line, .unindented opened.label⟩ := by
  by_cases hindent : opened.indent < Token.indentWidth line.text
  · have hnot : ¬Token.indentWidth line.text ≤ opened.indent := Nat.not_le.2 hindent
    simp [Reader.step, hr, hindent, hnot]
  · have hle : Token.indentWidth line.text ≤ opened.indent := Nat.not_lt.1 hindent
    by_cases hend : Chars.trim line.text.toList = "end".toList
    · simp [Reader.step, hr, hindent, hle, hend]
    · have hbeq : (Chars.trim line.text.toList == "end".toList) = false :=
        beq_eq_false_iff_ne.2 hend
      rw [if_neg hindent, if_neg hend]
      cases hidle : isIdle line.text with
      | false | true =>
        rw [isIdle] at hidle
        simp only [Reader.step, hr, hbeq, hle, hidle]
        rfl

/-- What a reader does with a line that has some role. -/
inductive Acts (r : Reader) (line : SourceLine) : Role → Reader → Prop
  | idle : Acts r line .idle r
  | header (header : Header) :
    Acts r line (.header header) (r.follow line.line (Token.indentWidth line.text) header)
  | closing : Acts r line .closing { r with open? := none }
  | code {owner : Owner} {holder : Holder} (howner : owner.holder? (keys r.sprites) = some holder) :
    Acts r line (.code holder) (r.addLine owner line)

/-- Between sections a reader does with a line what its role in the scene says. -/
theorem Stands.acts_between (h : r.Stands scene) (hopen : r.open? = none)
    (hstep : r.step line = .ok r') : r.Acts line (scene.role line.text) r' := by
  have hscene := h.between hopen
  cases hidle : isIdle line.text with
  | true =>
    have hrole : scene.role line.text = .idle := by simp [Scene.role, hscene, hidle]
    rw [step_idle hopen hidle] at hstep
    obtain rfl := Except.ok.inj hstep
    rw [hrole]
    exact .idle
  | false =>
    cases hparse : Header.parse? (Chars.trim line.text.toList) with
    | some header =>
      have hrole : scene.role line.text = .header header := by
        simp [Scene.role, hscene, hidle, hparse]
      rw [step_header hopen hidle hparse] at hstep
      obtain rfl := Except.ok.inj hstep
      rw [hrole]
      exact .header header
    | none =>
      have hrole : scene.role line.text = .code (.sprite scene.active) := by
        simp [Scene.role, hscene, hidle, hparse]
      rw [step_loose hopen hidle hparse] at hstep
      obtain rfl := Except.ok.inj hstep
      rw [hrole]
      refine .code ?_
      rw [Owner.holder?, h.active]
      rfl

/-- Inside a section the reader asks the same questions about a line as the scene, in the same
order. -/
theorem Stands.acts_inside (h : r.Stands scene) {opened : OpenSection}
    (hopen : r.open? = some opened) (hstep : r.step line = .ok r') :
    r.Acts line (scene.role line.text) r' := by
  obtain ⟨holder, hholder, hscene⟩ := h.inside opened hopen
  have hrole : scene.role line.text = if opened.indent < Token.indentWidth line.text then
      .code holder
    else if Chars.trim line.text.toList = "end".toList then .closing
    else if isIdle line.text then .code holder else .stray := by
    simp only [Scene.role, hscene]
  rw [step_opened hopen] at hstep
  rw [hrole]
  split at hstep
  · next hindent =>
    obtain rfl := Except.ok.inj hstep
    rw [if_pos hindent]
    exact .code hholder
  · next hindent =>
    rw [if_neg hindent]
    split at hstep
    · next hend =>
      obtain rfl := Except.ok.inj hstep
      rw [if_pos hend]
      exact .closing
    · next hend =>
      rw [if_neg hend]
      split at hstep
      · next hidle =>
        obtain rfl := Except.ok.inj hstep
        rw [if_pos hidle]
        exact .code hholder
      · -- a line that belongs to no section is not taken
        exact absurd hstep nofun

/-- With a line that is taken, a reader does what the role of the line in the scene says. -/
theorem Stands.acts (h : r.Stands scene) (hstep : r.step line = .ok r') :
    r.Acts line (scene.role line.text) r' := by
  cases hopen : r.open? with
  | none => exact h.acts_between hopen hstep
  | some opened => exact h.acts_inside hopen hstep

/-- A line that is taken has the role it has in the scene, and leads to the next scene. -/
theorem Stands.step (hr : (keys r.sprites).Nodup) (h : r.Stands scene)
    (hstep : r.step line = .ok r') :
    r'.Stands (scene.after line.text) ∧ r.Takes [(line, scene.role line.text)] r' := by
  have hacts := h.acts hstep
  rw [Scene.after]
  generalize scene.role line.text = role at hacts ⊢
  cases hacts with
  | idle => exact ⟨h, .of_linesOf nofun nofun fun _ ↦ rfl⟩
  | header header =>
    exact ⟨h.follow _ _ header, .of_linesOf nofun nofun (linesOf_follow r _ _ header)⟩
  | closing => exact ⟨⟨h.active, fun _ ↦ rfl, nofun⟩, .of_linesOf nofun nofun fun _ ↦ rfl⟩
  | code howner => exact ⟨h.addLine _ line, .addLine hr howner⟩

/-- The lines of a text lead through its scenes, and all code is taken. -/
theorem Stands.foldlM (hr : r.IsSound) (h : r.Stands scene) {lines : List SourceLine}
    (hlines : ∀ line ∈ lines, Text.IsInline line.text)
    (hread : lines.foldlM Reader.step r = .ok r') : r.Takes (scene.marked lines) r' := by
  induction lines generalizing r scene with
  | nil =>
    obtain rfl := Except.ok.inj hread
    exact ⟨fun holder ↦ (List.append_nil _).symm, List.forall_mem_nil _⟩
  | cons line lines ih =>
    obtain ⟨hline, hlines⟩ := List.forall_mem_cons.1 hlines
    rw [List.foldlM_cons] at hread
    obtain ⟨next, hnext, hread⟩ := Reading.bind_eq_ok.1 hread
    obtain ⟨hstands, hfirst⟩ := h.step hr.nodup hnext
    have hrest := ih (hr.step hline hnext) hstands hlines hread
    refine ⟨fun holder ↦ ?_, List.forall_mem_cons.2 ⟨?_, hrest.stray⟩⟩
    · rw [Scene.marked, codeOf_cons, ← List.append_assoc, ← hfirst.linesOf, hrest.linesOf]
    · exact hfirst.stray _ List.mem_cons_self

/-- Leaving out the unused default sprite leaves out no line. -/
theorem linesOf_finish {o : Outline} (h : r.finish = .ok o) (holder : Holder) :
    o.linesOf holder = r.soFar.linesOf holder := by
  unfold finish at h
  split at h
  · exact absurd h nofun
  · split at h
    · next first rest hsprites =>
      split at h
      · next hunused =>
        obtain rfl := Except.ok.inj h
        have hlines : first.lines = [] := by
          simp only [isUnused, Bool.and_eq_true, List.isEmpty_iff] at hunused
          exact hunused.1.1.2
        cases holder with
        | stage => rfl
        | sprite key =>
          show rest.flatMap _ = r.sprites.flatMap _
          simp [hsprites, linesUnder, hlines]
      · obtain rfl := Except.ok.inj h
        rfl
    · next hsprites =>
      obtain rfl := Except.ok.inj h
      rw [soFar, hsprites]

end Reader

/-! ### Divisions -/

/-- The lines of a text with what each of them is. -/
def marks (text : String) : List (SourceLine × Role) :=
  Scene.marked {} (sourceLines text)

/-- Where a line with some role is in an outline: code is once in the section of its holder and
nowhere else, and of all other lines there is no trace. -/
def Places (o : Outline) (line : SourceLine) : Role → Prop
  | .idle | .header _ | .closing => ∀ other ∈ o.lineSets.flatten, other.line ≠ line.line
  | .stray => False
  | .code holder => line ∈ o.linesOf holder ∧ o.lineSets.flatten.count line = 1

/-- The outline has the lines of a text, each one in its place. -/
structure IsDivision (o : Outline) (text : String) : Prop where
  /-- Every line of the text has a role, its number and its text, and is placed as the role says. -/
  placed : ∀ i raw, (Chars.lines text.toList)[i]? = some raw → ∃ line role,
    (marks text)[i]? = some (line, role) ∧ line = ⟨i + 1, String.ofList (Chars.dropReturn raw)⟩ ∧
      o.Places line role
  /-- What a holder has is code of the text that belongs to it. -/
  only : ∀ holder, ∀ line ∈ o.linesOf holder, (line, .code holder) ∈ marks text
  /-- Each section has the lines of its sprite. -/
  sprites : ∀ s ∈ o.sprites, s.lines = o.linesOf (.sprite (Text.lower s.name))
  /-- Lines are in the order of the text. -/
  ordered : ∀ lines ∈ o.lineSets, lines.Pairwise fun line next ↦ line.line < next.line

/-- The lines of a text are numbered in increasing order. -/
theorem sourceLines_pairwise (text : String) :
    (sourceLines text).Pairwise fun line next ↦ line.line < next.line := by
  have hnumbers : ((Chars.lines text.toList).zipIdx.map Prod.snd).Pairwise (· < ·) := by
    rw [List.zipIdx_map_snd]
    exact List.pairwise_lt_range'
  rw [sourceLines, List.pairwise_map]
  exact (List.pairwise_map.1 hnumbers).imp Nat.succ_lt_succ

/-- A line of a text has the number after its position, and no carriage return at its end. -/
theorem getElem?_sourceLines {text : String} {i : Nat} {raw : List Char}
    (h : (Chars.lines text.toList)[i]? = some raw) :
    (sourceLines text)[i]? = some ⟨i + 1, String.ofList (Chars.dropReturn raw)⟩ := by
  simp [sourceLines, h]

/-- All lines of a text are marked. -/
theorem map_fst_marks (text : String) : (marks text).map Prod.fst = sourceLines text :=
  Scene.map_fst_marked {} (sourceLines text)

/-- A number stands for one line of the text. -/
theorem eq_of_mem_marks {text : String} {mark other : SourceLine × Role} (h : mark ∈ marks text)
    (hother : other ∈ marks text) (hline : mark.1.line = other.1.line) : mark = other := by
  have hnodup : ((marks text).map fun mark ↦ mark.1.line).Nodup := by
    have hnumbers := List.pairwise_map.2 ((sourceLines_pairwise text).imp Nat.ne_of_lt)
    rw [← map_fst_marks, List.map_map] at hnumbers
    exact hnumbers
  exact List.inj_on_of_nodup_map hnodup h hother hline

section

variable {text : String} {o : Outline} (hkeys : (keys o.sprites).Nodup)
  (hcode : ∀ holder, o.linesOf holder = codeOf holder (marks text))

include hkeys in
/-- The lists of an outline are those of its holders. -/
theorem exists_holder {lines : List SourceLine} (h : lines ∈ o.lineSets) :
    ∃ holder, o.linesOf holder = lines := by
  rcases List.mem_cons.1 h with rfl | h
  · exact ⟨.stage, rfl⟩
  · obtain ⟨s, hs, rfl⟩ := List.mem_map.1 h
    exact ⟨.sprite (Text.lower s.name), flatMap_linesUnder hkeys hs⟩

include hcode in
/-- A line of a holder is marked as its code. -/
theorem mem_marks_of_mem_linesOf {holder : Holder} {line : SourceLine}
    (h : line ∈ o.linesOf holder) : (line, .code holder) ∈ marks text :=
  mem_codeOf.1 (hcode holder ▸ h)

include hcode in
/-- The lines of a holder are in their order in the text. -/
theorem linesOf_pairwise (holder : Holder) :
    (o.linesOf holder).Pairwise fun line next ↦ line.line < next.line := by
  have hsub : (o.linesOf holder).Sublist (sourceLines text) := by
    rw [hcode, ← map_fst_marks]
    exact List.filter_sublist.map Prod.fst
  exact (sourceLines_pairwise text).sublist hsub

include hcode in
/-- No line has two holders. -/
theorem disjoint_linesOf {holder other : Holder} (h : holder ≠ other) :
    List.Disjoint (o.linesOf holder) (o.linesOf other) := by
  intro line hline hother
  have hmark := eq_of_mem_marks (mem_marks_of_mem_linesOf hcode hline)
    (mem_marks_of_mem_linesOf hcode hother) rfl
  exact h (Role.code.inj (congrArg Prod.snd hmark))

include hkeys hcode in
/-- No line is in an outline twice. -/
theorem nodup_lineSets : o.lineSets.flatten.Nodup := by
  have hown : ∀ s ∈ o.sprites, o.linesOf (.sprite (Text.lower s.name)) = s.lines :=
    fun s hs ↦ flatMap_linesUnder hkeys hs
  refine List.nodup_flatten.2
    ⟨fun lines hlines ↦ ?_, List.pairwise_cons.2 ⟨fun lines hlines ↦ ?_, ?_⟩⟩
  · obtain ⟨holder, rfl⟩ := exists_holder hkeys hlines
    exact (linesOf_pairwise hcode holder).imp fun hlt heq ↦ Nat.ne_of_lt hlt (congrArg _ heq)
  · obtain ⟨s, hs, rfl⟩ := List.mem_map.1 hlines
    rw [← hown s hs]
    show List.Disjoint (o.linesOf .stage) _
    exact disjoint_linesOf hcode nofun
  · -- Sections of different sprites have different keys.
    rw [List.pairwise_map]
    refine (List.pairwise_map.1 hkeys).imp_of_mem fun {s t} hs ht hne ↦ ?_
    rw [← hown s hs, ← hown t ht]
    exact disjoint_linesOf hcode fun heq ↦ hne (Holder.sprite.inj heq)

include hkeys hcode in
/-- A line is placed as its mark says. -/
theorem places_of_mem_marks {line : SourceLine} {role : Role} (h : (line, role) ∈ marks text)
    (hstray : role ≠ .stray) : o.Places line role := by
  have habsent : (∀ holder, role ≠ .code holder) →
      ∀ other ∈ o.lineSets.flatten, other.line ≠ line.line := by
    intro hrole other hother heq
    obtain ⟨lines, hlines, hmem⟩ := List.mem_flatten.1 hother
    obtain ⟨holder, rfl⟩ := exists_holder hkeys hlines
    have hmark := eq_of_mem_marks h (mem_marks_of_mem_linesOf hcode hmem) heq.symm
    exact hrole holder (congrArg Prod.snd hmark)
  cases role with
  | idle | header | closing => exact habsent nofun
  | stray => exact hstray rfl
  | code holder =>
    have hline : line ∈ o.linesOf holder := by
      rw [hcode]
      exact mem_codeOf.2 h
    have hmem := linesOf_subset o holder hline
    exact ⟨hline, List.count_eq_one_of_mem (nodup_lineSets hkeys hcode) hmem⟩

end

/-- **Every line has its place.** The outline of a text has each line of code once, in the section
of the one it belongs to, and nothing else. -/
theorem isDivision_of_ofText {text : String} {o : Outline} (h : ofText text = .ok o) :
    o.IsDivision text := by
  obtain ⟨r, hread, hfinish⟩ := Reading.bind_eq_ok.1 h
  have hinline : ∀ line ∈ sourceLines text, Text.IsInline line.text :=
    fun line ↦ isInline_of_mem_sourceLines
  have htakes := Reader.stands_start.foldlM Reader.isSound_start hinline hread
  have hkeys := (isSound_of_ofText h).nodup
  have hcode : ∀ holder, o.linesOf holder = codeOf holder (marks text) := by
    intro holder
    have hstart : (Reader.soFar {}).linesOf holder = [] := by
      cases holder <;> simp [Reader.soFar, linesOf, linesUnder]
    rw [Reader.linesOf_finish hfinish, htakes.linesOf, hstart, List.nil_append, marks]
  refine ⟨fun i raw hraw ↦ ?_, fun holder line hline ↦ mem_marks_of_mem_linesOf hcode hline,
    fun s hs ↦ (flatMap_linesUnder hkeys hs).symm, fun lines hlines ↦ ?_⟩
  · have hline := getElem?_sourceLines hraw
    rw [← map_fst_marks, List.getElem?_map] at hline
    obtain ⟨⟨line, role⟩, hmark, rfl⟩ := Option.map_eq_some_iff.1 hline
    have hmem := List.mem_of_getElem? hmark
    exact ⟨_, role, hmark, rfl, places_of_mem_marks hkeys hcode hmem (htakes.stray _ hmem)⟩
  · obtain ⟨holder, rfl⟩ := exists_holder hkeys hlines
    exact linesOf_pairwise hcode holder

/-- A sprite that is named in three casings, with a section of the stage in between. -/
def reopenedText : String :=
  "sprite = Cat\nmove 1\r\ncat_code =\n  turn 2\n\nend\n# note\n" ++
    "stage_code =\n  # kept\nend\nCAT_code =\n  move 3\nend\nstop\n"

/-- The default sprite is not among its sections, and the blank line of a section is. -/
def reopenedOutline : Outline where
  stage := [⟨9, "  # kept"⟩]
  sprites := [⟨"CAT", none,
    [⟨2, "move 1"⟩, ⟨4, "  turn 2"⟩, ⟨5, ""⟩, ⟨12, "  move 3"⟩, ⟨14, "stop"⟩], true⟩]

/-- A sprite that is opened again under another casing keeps all its lines. -/
theorem isDivision_of_ofText_reopened :
    ofText reopenedText = .ok reopenedOutline ∧ reopenedOutline.IsDivision reopenedText := by
  have hread : ofText reopenedText = .ok reopenedOutline := by decide +kernel
  exact ⟨hread, isDivision_of_ofText hread⟩

end Outline

end BlockScript
