import BlockScript.Proofs.Division

/-!
# The sprites of a text

Which sprites an outline has, in which order and under which names, follows from the headers of the
text alone: from the names that they give (`Outline.mentions`) and the sprites that they give
costumes (`Outline.dressed`). A sprite stands where it is first mentioned, the default sprite before
all others, and it is spelled as in its last mention. Only the default sprite can be missing, and it
is missing exactly if the text says nothing of it and something else (`Outline.LeavesOutDefault`).

A reader keeps such a roster with every line (`Outline.Reader.Enrolls.step`), so the outline of a
text has the roster of the text (`Outline.isRoster_of_ofText`).
-/

namespace BlockScript

namespace Outline

/-! ### What a text says of its sprites -/

/-- The key of the sprite that is there before any other is named. -/
def defaultKey : String :=
  Text.lower Header.defaultSprite

/-- The name that a line gives a sprite, as it is spelled there. -/
def Role.mention? : Role → Option String
  | .header (.spriteName name) => some (Text.nameOr name Header.defaultSprite)
  | .header (.spriteCode name) => some (Text.nameOr name Header.defaultSprite)
  | _ => none

/-- The sprite that a line gives a costume or takes it from, which is the active one. -/
def Role.dressed? (active : String) : Role → Option String
  | .header (.costume _) => some active
  | _ => none

/-- The names in marked lines. -/
def namesIn (marks : List (SourceLine × Role)) : List String :=
  marks.filterMap fun mark ↦ mark.2.mention?

/-- The sprites that lines give costumes, by their keys. -/
def Scene.dressed (scene : Scene) : List SourceLine → List String
  | [] => []
  | line :: lines =>
    ((scene.role line.text).dressed? scene.active).toList ++ (scene.after line.text).dressed lines

/-- The names that a text gives sprites by `sprite =` or `_code =`, in the order of its lines. -/
def mentions (text : String) : List String :=
  namesIn (marks text)

/-- The sprites that a text gives costumes by `svg =`, by their keys. -/
def dressed (text : String) : List String :=
  Scene.dressed {} (sourceLines text)

/-- The keys of names, after that of the default sprite, which needs no mention. -/
def called (names : List String) : List String :=
  defaultKey :: names.map Text.lower

/-- How a sprite is spelled last among names. -/
def lastSpelling (names : List String) (key : String) : String :=
  (names.filter fun name ↦ Text.lower name = key).getLast?.getD Header.defaultSprite

/-- Nothing in the text is about the default sprite, and something is about another sprite or the
stage. -/
structure LeavesOutDefault (text : String) : Prop where
  unnamed : defaultKey ∉ (mentions text).map Text.lower
  undressed : defaultKey ∉ dressed text
  empty : codeOf (.sprite defaultKey) (marks text) = []
  others : mentions text ≠ [] ∨ codeOf .stage (marks text) ≠ []

/-- The sections of the outline are those that the text calls for. -/
structure IsRoster (o : Outline) (text : String) : Prop where
  /-- No two sections are for one sprite. -/
  distinct : (keys o.sprites).Nodup
  /-- Each sprite has the spelling of its last mention. -/
  spelled : ∀ s ∈ o.sprites, s.name = lastSpelling (mentions text) (Text.lower s.name)
  /-- Sections are in the order of the first mentions. -/
  ordered : (keys o.sprites).Pairwise fun key next ↦
    (called (mentions text)).idxOf key < (called (mentions text)).idxOf next
  /-- Every sprite that is called has a section, but for a default sprite that is left out. -/
  present : ∀ key, key ∈ keys o.sprites ↔
    key ∈ called (mentions text) ∧ ¬(key = defaultKey ∧ LeavesOutDefault text)

theorem namesIn_cons (mark : SourceLine × Role) (marks : List (SourceLine × Role)) :
    namesIn (mark :: marks) = mark.2.mention?.toList ++ namesIn marks := by
  cases h : mark.2.mention? <;> simp [namesIn, h]

theorem called_append (names : List String) (name : String) :
    called (names ++ [name]) = called names ++ [Text.lower name] := by
  simp [called]

theorem lastSpelling_append_self (names : List String) (name : String) :
    lastSpelling (names ++ [name]) (Text.lower name) = name := by
  simp [lastSpelling]

theorem lastSpelling_append_of_ne {names : List String} {name key : String}
    (h : Text.lower name ≠ key) : lastSpelling (names ++ [name]) key = lastSpelling names key := by
  simp [lastSpelling, h]

theorem lastSpelling_of_notMem {names : List String} {key : String}
    (h : key ∉ names.map Text.lower) : lastSpelling names key = Header.defaultSprite := by
  have hnone : names.filter (fun name ↦ Text.lower name = key) = [] := by
    refine List.filter_eq_nil_iff.2 fun name hname hkey ↦ h ?_
    exact List.mem_map.2 ⟨name, hname, by simpa using hkey⟩
  rw [lastSpelling, hnone]
  rfl

/-! ### Changed sections -/

/-- Where no two sections are for one sprite, a change at its place is a change of that sprite and
of no other. -/
theorem mem_modify_cases {sprites : List SpriteSection} (hnodup : (keys sprites).Nodup) {i : Nat}
    {key : String} (hkey : (keys sprites)[i]? = some key) {f : SpriteSection → SpriteSection}
    {s : SpriteSection} (hs : s ∈ sprites.modify i f) :
    (∃ t ∈ sprites, Text.lower t.name = key ∧ s = f t) ∨
      s ∈ sprites ∧ Text.lower s.name ≠ key := by
  obtain ⟨j, hj⟩ := List.mem_iff_getElem?.1 hs
  rw [List.getElem?_modify] at hj
  obtain ⟨t, ht, rfl⟩ := Option.map_eq_some_iff.1 hj
  have hkeys : (keys sprites)[j]? = some (Text.lower t.name) := by simp [keys, ht]
  have hmem := List.mem_of_getElem? ht
  by_cases hij : i = j
  · subst hij
    rw [if_pos rfl]
    exact .inl ⟨t, hmem, Option.some.inj (hkeys.symm.trans hkey), rfl⟩
  · rw [if_neg hij]
    refine .inr ⟨hmem, fun hsame ↦ hij ?_⟩
    have hlt := (List.getElem?_eq_some_iff.1 hkey).1
    exact (List.getElem?_inj hlt hnodup).1 (by rw [hkey, hkeys, hsame])

namespace Reader

variable {r r' : Reader} {scene : Scene} {line : SourceLine} {names dressed : List String}

/-- A mention changes or adds the section of one sprite, and leaves those of all others. -/
theorem mem_mention_cases (hr : (keys r.sprites).Nodup) (name : String) {s : SpriteSection}
    (hs : s ∈ (r.mention name).1.sprites) :
    s.name = Text.nameOr name Header.defaultSprite ∧ s.mentioned = true ∨
      s ∈ r.sprites ∧ Text.lower s.name ≠ mentionKey name := by
  rcases r.mention_cases name with ⟨i, hkey, heq⟩ | ⟨hnew, heq⟩ <;> rw [heq] at hs <;>
    dsimp only at hs
  · rcases mem_modify_cases hr hkey hs with ⟨t, -, -, rfl⟩ | hother
    · exact .inl ⟨rfl, rfl⟩
    · exact .inr hother
  · rcases List.mem_append.1 hs with hs | hs
    · refine .inr ⟨hs, fun hsame ↦ hnew ?_⟩
      exact List.mem_map.2 ⟨s, hs, hsame⟩
    · rw [List.mem_singleton.1 hs]
      exact .inl ⟨rfl, rfl⟩

/-- A mention adds a key only if it is new. -/
theorem keys_mention (r : Reader) (name : String) :
    keys (r.mention name).1.sprites =
      if mentionKey name ∈ keys r.sprites then keys r.sprites
      else keys r.sprites ++ [mentionKey name] := by
  rcases r.mention_cases name with ⟨i, hkey, heq⟩ | ⟨hnew, heq⟩ <;> rw [heq] <;> dsimp only
  · have hmem : mentionKey name ∈ keys r.sprites := List.mem_of_getElem? hkey
    rw [if_pos hmem]
    exact keys_rename hkey
  · have hnew : mentionKey name ∉ keys r.sprites := hnew
    rw [if_neg hnew, keys_append_singleton]
    rfl

/-! ### Readers with their rosters -/

/-- The sections of a reader are those of the names and of the sprites with costumes so far. -/
structure Enrolls (r : Reader) (names dressed : List String) : Prop where
  ordered : (keys r.sprites).Pairwise fun key next ↦
    (called names).idxOf key < (called names).idxOf next
  present : ∀ key, key ∈ keys r.sprites ↔ key ∈ called names
  spelled : ∀ s ∈ r.sprites, s.name = lastSpelling names (Text.lower s.name)
  mentioned : ∀ s ∈ r.sprites, s.mentioned = true ↔
    Text.lower s.name ∈ names.map Text.lower ∨ Text.lower s.name ∈ dressed
  costume : ∀ s ∈ r.sprites, s.mentioned = false → s.costume = none

theorem enrolls_start : Enrolls {} [] [] where
  ordered := List.pairwise_singleton _ _
  present := fun _ ↦ Iff.rfl
  spelled := List.forall_mem_singleton.2 rfl
  mentioned := List.forall_mem_singleton.2 (by simp)
  costume := List.forall_mem_singleton.2 fun _ ↦ rfl

namespace Enrolls

theorem nodup (h : r.Enrolls names dressed) : (keys r.sprites).Nodup := by
  refine h.ordered.imp ?_
  rintro key _ hlt rfl
  exact Nat.lt_irrefl _ hlt

/-- The lines of the sections do not matter, nor does what is open. -/
theorem congr (h : r.Enrolls names dressed)
    (hview : r'.sprites.map (fun s ↦ (s.name, s.mentioned, s.costume)) =
      r.sprites.map fun s ↦ (s.name, s.mentioned, s.costume)) : r'.Enrolls names dressed := by
  have hkeys : keys r'.sprites = keys r.sprites := by
    have := congrArg (List.map fun view : String × Bool × Option String ↦ Text.lower view.1) hview
    rwa [List.map_map, List.map_map] at this
  have hview' : ∀ s ∈ r'.sprites, ∃ t ∈ r.sprites,
      t.name = s.name ∧ t.mentioned = s.mentioned ∧ t.costume = s.costume := by
    intro s hs
    have hmem := List.mem_map_of_mem (f := fun s ↦ (s.name, s.mentioned, s.costume)) hs
    rw [hview] at hmem
    obtain ⟨t, ht, heq⟩ := List.mem_map.1 hmem
    rw [Prod.mk.injEq, Prod.mk.injEq] at heq
    exact ⟨t, ht, heq⟩
  refine ⟨hkeys ▸ h.ordered, hkeys ▸ h.present, fun s hs ↦ ?_, fun s hs ↦ ?_, fun s hs ↦ ?_⟩
  · obtain ⟨t, ht, hname, -⟩ := hview' s hs
    exact hname ▸ h.spelled t ht
  · obtain ⟨t, ht, hname, hmentioned, -⟩ := hview' s hs
    exact hname ▸ hmentioned ▸ h.mentioned t ht
  · obtain ⟨t, ht, -, hmentioned, hcostume⟩ := hview' s hs
    exact hmentioned ▸ hcostume ▸ h.costume t ht

theorem addLine (h : r.Enrolls names dressed) (owner : Owner) (line : SourceLine) :
    (r.addLine owner line).Enrolls names dressed := by
  refine h.congr ?_
  cases owner with
  | stage => rfl
  | sprite i => exact map_modify_eq_map fun _ _ ↦ rfl

/-- The order of first mentions goes on where a key comes once more or for the first time. -/
theorem ordered_mention (h : r.Enrolls names dressed) (key : String) :
    (if key ∈ keys r.sprites then keys r.sprites else keys r.sprites ++ [key]).Pairwise
      fun key' next ↦ (called names ++ [key]).idxOf key' < (called names ++ [key]).idxOf next := by
  have hold : (keys r.sprites).Pairwise fun key' next ↦
      (called names ++ [key]).idxOf key' < (called names ++ [key]).idxOf next := by
    refine h.ordered.imp_of_mem fun {key' next} hkey' hnext hlt ↦ ?_
    rw [List.idxOf_append_of_mem ((h.present _).1 hkey'),
      List.idxOf_append_of_mem ((h.present _).1 hnext)]
    exact hlt
  split
  · exact hold
  · next hnew =>
    refine List.pairwise_append.2 ⟨hold, List.pairwise_singleton _ _,
      fun key' hkey' next hnext ↦ ?_⟩
    obtain rfl := List.mem_singleton.1 hnext
    have hmem := (h.present key').1 hkey'
    rw [List.idxOf_append_of_mem hmem, List.idxOf_append_of_notMem (mt (h.present _).2 hnew)]
    exact Nat.lt_of_lt_of_le (List.idxOf_lt_length_of_mem hmem) (Nat.le_add_right _ _)

theorem mention (h : r.Enrolls names dressed) (name : String) :
    (r.mention name).1.Enrolls (names ++ [Text.nameOr name Header.defaultSprite]) dressed := by
  have hcalled := called_append names (Text.nameOr name Header.defaultSprite)
  have hcases := fun s ↦ mem_mention_cases (s := s) h.nodup name
  have hkeys := keys_mention r name
  -- From here on only the key of the name counts, which is that of the sprite.
  rw [mentionKey] at hcases hkeys
  generalize Text.nameOr name Header.defaultSprite = final at hcalled hcases hkeys ⊢
  refine ⟨?_, fun key ↦ ?_, fun s hs ↦ ?_, fun s hs ↦ ?_, fun s hs hnot ↦ ?_⟩
  · rw [hkeys, hcalled]
    exact h.ordered_mention _
  · rw [hkeys, hcalled, List.mem_append, ← h.present, List.mem_singleton]
    split
    · next hmem => exact ⟨.inl, fun hkey ↦ hkey.elim id fun heq ↦ heq ▸ hmem⟩
    · rw [List.mem_append, List.mem_singleton]
  · rcases hcases s hs with ⟨hname, -⟩ | ⟨hmem, hne⟩
    · rw [hname, lastSpelling_append_self]
    · rw [lastSpelling_append_of_ne (Ne.symm hne)]
      exact h.spelled s hmem
  · rw [List.map_append, List.mem_append, List.map_singleton, List.mem_singleton]
    rcases hcases s hs with ⟨hname, hmentioned⟩ | ⟨hmem, hne⟩
    · exact iff_of_true hmentioned (.inl (.inr (congrArg _ hname)))
    · rw [or_iff_left hne]
      exact h.mentioned s hmem
  · rcases hcases s hs with ⟨-, hmentioned⟩ | ⟨hmem, -⟩
    · rw [hmentioned] at hnot
      cases hnot
    · exact h.costume s hmem hnot

/-- A costume is given to the active sprite. -/
theorem dress (h : r.Enrolls names dressed) (hstands : r.Stands scene) (line indent : Nat)
    (source : String) :
    (r.follow line indent (.costume source)).Enrolls names (dressed ++ [scene.active]) := by
  have hkeys : keys (r.follow line indent (.costume source)).sprites = keys r.sprites :=
    map_modify_eq_map fun _ _ ↦ rfl
  have hcases : ∀ s ∈ (r.follow line indent (.costume source)).sprites,
      (∃ t ∈ r.sprites, Text.lower t.name = scene.active ∧ s.name = t.name ∧ s.mentioned = true) ∨
        s ∈ r.sprites ∧ Text.lower s.name ≠ scene.active := by
    -- the section of the active sprite is marked as mentioned, and the others stay as they are
    intro s hs
    rcases mem_modify_cases h.nodup hstands.active hs with ⟨t, ht, hkey, rfl⟩ | hother
    · exact .inl ⟨t, ht, hkey, rfl, rfl⟩
    · exact .inr hother
  refine ⟨hkeys ▸ h.ordered, hkeys ▸ h.present, fun s hs ↦ ?_, fun s hs ↦ ?_, fun s hs hnot ↦ ?_⟩
  · rcases hcases s hs with ⟨t, ht, -, hname, -⟩ | ⟨hmem, -⟩
    · rw [hname]
      exact h.spelled t ht
    · exact h.spelled s hmem
  · rw [List.mem_append, List.mem_singleton]
    rcases hcases s hs with ⟨t, -, hkey, hname, hmentioned⟩ | ⟨hmem, hne⟩
    · exact iff_of_true hmentioned (.inr (.inr (hname ▸ hkey)))
    · rw [or_iff_left hne]
      exact h.mentioned s hmem
  · rcases hcases s hs with ⟨-, -, -, -, hmentioned⟩ | ⟨hmem, -⟩
    · rw [hmentioned] at hnot
      cases hnot
    · exact h.costume s hmem hnot

/-- A line that is no header of a sprite says nothing. -/
theorem silent (h : r.Enrolls names dressed) {role : Role} {active : String}
    (hmention : role.mention? = none) (hdressed : role.dressed? active = none) :
    r.Enrolls (names ++ role.mention?.toList) (dressed ++ (role.dressed? active).toList) := by
  rw [hmention, hdressed, Option.toList_none, List.append_nil, List.append_nil]
  exact h

/-- Every line that is taken adds to the roster what it says. -/
theorem step (h : r.Enrolls names dressed) (hstands : r.Stands scene)
    (hstep : r.step line = .ok r') :
    r'.Enrolls (names ++ (scene.role line.text).mention?.toList)
      (dressed ++ ((scene.role line.text).dressed? scene.active).toList) := by
  have hacts := hstands.acts hstep
  generalize scene.role line.text = role at hacts ⊢
  cases hacts with
  | idle => exact h.silent rfl rfl
  | closing =>
    refine silent ?_ rfl rfl
    exact h.congr rfl
  | code => exact (h.addLine _ line).silent rfl rfl
  | header header =>
    cases header with
    | stageCode =>
      refine silent ?_ rfl rfl
      exact h.congr rfl
    | spriteName name =>
      show Enrolls _ (names ++ [_]) (dressed ++ [])
      rw [follow_spriteName, List.append_nil]
      exact (h.mention name).congr rfl
    | spriteCode name =>
      show Enrolls _ (names ++ [_]) (dressed ++ [])
      rw [follow_spriteCode, List.append_nil]
      exact (h.mention name).congr rfl
    | costume source =>
      show Enrolls _ (names ++ []) (dressed ++ [_])
      rw [List.append_nil]
      exact h.dress hstands _ _ source

theorem foldlM (h : r.Enrolls names dressed) (hstands : r.Stands scene) {lines : List SourceLine}
    (hread : lines.foldlM Reader.step r = .ok r') :
    r'.Enrolls (names ++ namesIn (scene.marked lines)) (dressed ++ scene.dressed lines) := by
  induction lines generalizing r scene names dressed with
  | nil =>
    obtain rfl := Except.ok.inj hread
    simpa [Scene.marked, namesIn, Scene.dressed] using h
  | cons line lines ih =>
    rw [List.foldlM_cons] at hread
    obtain ⟨next, hnext, hread⟩ := Reading.bind_eq_ok.1 hread
    have hrest := ih (h.step hstands hnext) (hstands.step h.nodup hnext).1 hread
    rw [Scene.marked, namesIn_cons, Scene.dressed, ← List.append_assoc, ← List.append_assoc]
    exact hrest

/-- Apart from the default sprite, there is a section if there is a name. -/
theorem others_iff (h : r.Enrolls names dressed) {rest : List SpriteSection}
    (hkeys : keys r.sprites = defaultKey :: keys rest)
    (hunnamed : defaultKey ∉ names.map Text.lower) :
    rest ≠ [] ↔ names ≠ [] := by
  have hnew : defaultKey ∉ keys rest := (List.nodup_cons.1 (hkeys ▸ h.nodup)).1
  have hsame : ∀ key, key ∈ keys rest ↔ key ∈ names.map Text.lower := by
    intro key
    have hpresent := h.present key
    rw [hkeys, called, List.mem_cons, List.mem_cons] at hpresent
    by_cases hkey : key = defaultKey
    · exact iff_of_false (hkey ▸ hnew) (hkey ▸ hunnamed)
    · rwa [or_iff_right hkey, or_iff_right hkey] at hpresent
  have hempty : keys rest = [] ↔ names.map Text.lower = [] := by
    rw [List.eq_nil_iff_forall_not_mem, List.eq_nil_iff_forall_not_mem]
    exact forall_congr' fun key ↦ not_congr (hsame key)
  rw [keys, List.map_eq_nil_iff, List.map_eq_nil_iff] at hempty
  exact not_congr hempty

end Enrolls

/-! ### The roster of an outline -/

theorem keys_eq_cons {sprites rest : List SpriteSection} {first : SpriteSection}
    (h : sprites = first :: rest) (hfirst : Text.lower first.name = defaultKey) :
    keys sprites = defaultKey :: keys rest := by
  rw [h, keys, List.map_cons, hfirst, keys]

theorem linesOf_of_read {text : String} (hread : (sourceLines text).foldlM Reader.step {} = .ok r)
    (holder : Holder) : r.soFar.linesOf holder = codeOf holder (marks text) := by
  have htakes := stands_start.foldlM isSound_start (fun _ ↦ isInline_of_mem_sourceLines) hread
  have hstart : (Reader.soFar {}).linesOf holder = [] := by
    cases holder <;> simp [Reader.soFar, Outline.linesOf, linesUnder]
  rw [htakes.linesOf, hstart, List.nil_append, marks]

/-- The default sprite, which comes first, is left out exactly if the text says nothing of it but
something else. -/
theorem isUnused_iff {text : String} (hread : (sourceLines text).foldlM Reader.step {} = .ok r)
    (h : r.Enrolls (mentions text) (Outline.dressed text)) {first : SpriteSection}
    {rest : List SpriteSection} (hsprites : r.sprites = first :: rest)
    (hfirst : Text.lower first.name = defaultKey) :
    (isUnused first && (!rest.isEmpty || !r.stage.isEmpty)) = true ↔ LeavesOutDefault text := by
  have hmem : first ∈ r.sprites := hsprites ▸ List.mem_cons_self
  have hlines : first.lines = codeOf (.sprite defaultKey) (marks text) := by
    rw [← linesOf_of_read hread, ← hfirst]
    exact (flatMap_linesUnder h.nodup hmem).symm
  have hstage : r.stage = codeOf .stage (marks text) := linesOf_of_read hread .stage
  -- The flag of the section is set by names and by costumes, which the text tells apart.
  have hmentioned := h.mentioned first hmem
  rw [hfirst] at hmentioned
  have hothers := h.others_iff (keys_eq_cons hsprites hfirst)
  simp only [isUnused, Bool.and_eq_true, Bool.or_eq_true, Bool.not_eq_true', beq_iff_eq,
    List.isEmpty_iff, List.isEmpty_eq_false_iff, Option.isNone_iff_eq_none]
  constructor
  · rintro ⟨⟨⟨⟨-, hnot⟩, hempty⟩, -⟩, hmore⟩
    have hneither := not_or.1 (mt hmentioned.2 (Bool.eq_false_iff.1 hnot))
    refine ⟨hneither.1, hneither.2, hlines ▸ hempty, ?_⟩
    rw [← hothers hneither.1, ← hstage]
    exact hmore
  · rintro ⟨hunnamed, hundressed, hempty, hmore⟩
    have hnot : first.mentioned = false :=
      Bool.eq_false_iff.2 fun htrue ↦ (hmentioned.1 htrue).elim hunnamed hundressed
    have hname : first.name = Header.defaultSprite := by
      rw [h.spelled first hmem, hfirst, lastSpelling_of_notMem hunnamed]
    refine ⟨⟨⟨⟨hname, hnot⟩, hlines ▸ hempty⟩, h.costume first hmem hnot⟩, ?_⟩
    rw [hothers hunnamed, hstage]
    exact hmore

/-- An outline has all the sections of its reader, or all but the first one. -/
theorem finish_cases {o : Outline} {first : SpriteSection} {rest : List SpriteSection}
    (hsprites : r.sprites = first :: rest) (h : r.finish = .ok o) :
    (isUnused first && (!rest.isEmpty || !r.stage.isEmpty)) = true ∧ o.sprites = rest ∨
      ¬(isUnused first && (!rest.isEmpty || !r.stage.isEmpty)) = true ∧ o.sprites = r.sprites := by
  unfold finish at h
  rw [hsprites] at h ⊢
  split at h
  · cases h
  · dsimp only at h
    split at h
    · next hunused =>
      obtain rfl := Except.ok.inj h
      exact .inl ⟨hunused, rfl⟩
    · next hused =>
      obtain rfl := Except.ok.inj h
      exact .inr ⟨hused, rfl⟩

end Reader

/-- **Sections are unique and in the order of first mention.** The outline of a text has one section
for each sprite that the text calls, under the spelling of its last mention, and leaves out at most
a default sprite that the text says nothing of. -/
theorem isRoster_of_ofText {text : String} {o : Outline} (h : ofText text = .ok o) :
    o.IsRoster text := by
  obtain ⟨r, hread, hfinish⟩ := Reading.bind_eq_ok.1 h
  have hroll : r.Enrolls (mentions text) (dressed text) :=
    Reader.enrolls_start.foldlM Reader.stands_start hread
  have hhead := (Reader.isSound_start.foldlM (fun _ ↦ isInline_of_mem_sourceLines) hread).head
  obtain ⟨first, rest, hsprites⟩ : ∃ first rest, r.sprites = first :: rest :=
    List.exists_cons_of_ne_nil fun hnil ↦ by simp [hnil, keys] at hhead
  have hfirst : Text.lower first.name = defaultKey := by
    simpa [hsprites, keys, defaultKey] using hhead
  have hunused := Reader.isUnused_iff hread hroll hsprites hfirst
  -- Without its first section the reader has every sprite that is called but the default one.
  rcases Reader.finish_cases hsprites hfinish with ⟨hdrop, ho⟩ | ⟨hkeep, ho⟩
  · have hkeys := Reader.keys_eq_cons hsprites hfirst
    have hnew : defaultKey ∉ keys rest := (List.nodup_cons.1 (hkeys ▸ hroll.nodup)).1
    have hsub : (keys rest).Sublist (keys r.sprites) := hkeys ▸ List.sublist_cons_self _ _
    refine ⟨ho ▸ hroll.nodup.sublist hsub, fun s hs ↦ hroll.spelled s ?_,
      ho ▸ hroll.ordered.sublist hsub, fun key ↦ ?_⟩
    · exact hsprites ▸ List.mem_cons_of_mem _ (ho ▸ hs)
    · rw [ho, ← hroll.present, hkeys, List.mem_cons]
      constructor
      · intro hkey
        exact ⟨.inr hkey, fun hdefault ↦ hnew (hdefault.1 ▸ hkey)⟩
      · rintro ⟨hkey, hnot⟩
        exact hkey.resolve_left fun heq ↦ hnot ⟨heq, hunused.1 hdrop⟩
  · refine ⟨ho ▸ hroll.nodup, ho ▸ hroll.spelled, ho ▸ hroll.ordered, fun key ↦ ?_⟩
    rw [ho, ← hroll.present]
    exact (and_iff_left fun hleft ↦ hkeep (hunused.2 hleft.2)).symm

/-- Sprites in several spellings, with a costume for the default sprite before it is named. -/
def mixedText : String :=
  "svg = a.svg\nCat_code =\n  show\nend\nsprite = \" dog \"\nhide\nsprite = SPRITE1\ncat_code =\nend\n"

def mixedOutline : Outline where
  stage := []
  sprites := [⟨"SPRITE1", some "a.svg", [], true⟩, ⟨"cat", none, [⟨3, "  show"⟩], true⟩,
    ⟨"dog", none, [⟨6, "hide"⟩], true⟩]

theorem isRoster_of_ofText_mixed :
    ofText mixedText = .ok mixedOutline ∧ mixedOutline.IsRoster mixedText := by
  have hread : ofText mixedText = .ok mixedOutline := by decide +kernel
  exact ⟨hread, isRoster_of_ofText hread⟩

end Outline

end BlockScript
