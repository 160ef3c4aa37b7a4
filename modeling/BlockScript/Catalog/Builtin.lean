import BlockScript.Catalog.Basic

/-!
# The built-in catalog

The commands that scripts can use when no other catalog is given, by the family of their blocks.
-/

namespace BlockScript.Catalog

/-- Commands that start scripts and send broadcasts. -/
def events : List Command :=
  [
    { name := "when_flag_clicked", opcode? := some "event_whenflagclicked", kind := .hat },
    { name := "when_this_sprite_clicked", opcode? := some "event_whenthisspriteclicked",
      kind := .hat },
    { name := "when_stage_clicked", opcode? := some "event_whenstageclicked", kind := .hat },
    { name := "when_key_pressed", opcode? := some "event_whenkeypressed", kind := .hat,
      fields := [
        { name := "KEY_OPTION", source := .index 0, default? := some "space" }] },
    { name := "when_broadcast_received", opcode? := some "event_whenbroadcastreceived",
      kind := .hat,
      fields := [
        { name := "BROADCAST_OPTION", source := .rest 0, default? := some "message1",
          symbols := some .broadcasts }] },
    { name := "when_backdrop_switches_to", opcode? := some "event_whenbackdropswitchesto",
      kind := .hat,
      fields := [
        { name := "BACKDROP", source := .rest 0, default? := some "backdrop1" }] },
    { name := "broadcast", opcode? := some "event_broadcast",
      inputs := [
        { name := "BROADCAST_INPUT", source := .rest 0, kind := .menu,
          default? := some "message1", symbols := some .broadcasts,
          menuOpcode := some "event_broadcast_menu", menuField := some "BROADCAST_OPTION" }] },
    { name := "broadcast_and_wait", opcode? := some "event_broadcastandwait",
      inputs := [
        { name := "BROADCAST_INPUT", source := .rest 0, kind := .menu,
          default? := some "message1", symbols := some .broadcasts,
          menuOpcode := some "event_broadcast_menu", menuField := some "BROADCAST_OPTION" }] }]

/-- Commands that move a sprite. -/
def motion : List Command :=
  [
    { name := "move", opcode? := some "motion_movesteps",
      inputs := [
        { name := "STEPS", source := .index 0, default? := some "10" }] },
    { name := "turn_right", opcode? := some "motion_turnright",
      inputs := [
        { name := "DEGREES", source := .index 0, default? := some "15" }] },
    { name := "turn_left", opcode? := some "motion_turnleft",
      inputs := [
        { name := "DEGREES", source := .index 0, default? := some "15" }] },
    { name := "go_to_xy", opcode? := some "motion_gotoxy",
      inputs := [
        { name := "X", source := .index 0, default? := some "0" },
        { name := "Y", source := .index 1, default? := some "0" }] },
    { name := "go_to", opcode? := some "motion_goto",
      inputs := [
        { name := "TO", source := .index 0, kind := .menu, default? := some "_random_",
          menuOpcode := some "motion_goto_menu", menuField := some "TO" }] },
    { name := "glide_to_xy", opcode? := some "motion_glidesecstoxy",
      inputs := [
        { name := "SECS", source := .index 0, default? := some "1" },
        { name := "X", source := .index 1, default? := some "0" },
        { name := "Y", source := .index 2, default? := some "0" }] },
    { name := "change_x_by", opcode? := some "motion_changexby",
      inputs := [
        { name := "DX", source := .index 0, default? := some "10" }] },
    { name := "set_x", opcode? := some "motion_setx",
      inputs := [
        { name := "X", source := .index 0, default? := some "0" }] },
    { name := "change_y_by", opcode? := some "motion_changeyby",
      inputs := [
        { name := "DY", source := .index 0, default? := some "10" }] },
    { name := "set_y", opcode? := some "motion_sety",
      inputs := [
        { name := "Y", source := .index 0, default? := some "0" }] },
    { name := "point_in_direction", opcode? := some "motion_pointindirection",
      inputs := [
        { name := "DIRECTION", source := .index 0, kind := .angle, default? := some "90" }] },
    { name := "if_on_edge_bounce", opcode? := some "motion_ifonedgebounce" },
    { name := "x_position", opcode? := some "motion_xposition", kind := .reporter },
    { name := "y_position", opcode? := some "motion_yposition", kind := .reporter },
    { name := "direction", opcode? := some "motion_direction", kind := .reporter }]

/-- Commands about costumes, speech and visibility. -/
def looks : List Command :=
  [
    { name := "say", opcode? := some "looks_say",
      inputs := [
        { name := "MESSAGE", source := .rest 0, kind := .text, default? := some "Hello!" }] },
    { name := "say_for_secs", opcode? := some "looks_sayforsecs",
      inputs := [
        { name := "SECS", source := .index 0, default? := some "2" },
        { name := "MESSAGE", source := .rest 1, kind := .text, default? := some "Hello!" }] },
    { name := "think", opcode? := some "looks_think",
      inputs := [
        { name := "MESSAGE", source := .rest 0, kind := .text, default? := some "Hmm..." }] },
    { name := "think_for_secs", opcode? := some "looks_thinkforsecs",
      inputs := [
        { name := "SECS", source := .index 0, default? := some "2" },
        { name := "MESSAGE", source := .rest 1, kind := .text, default? := some "Hmm..." }] },
    { name := "show", opcode? := some "looks_show" },
    { name := "hide", opcode? := some "looks_hide" },
    { name := "next_costume", opcode? := some "looks_nextcostume" },
    { name := "next_backdrop", opcode? := some "looks_nextbackdrop" },
    { name := "switch_costume_to", opcode? := some "looks_switchcostumeto",
      inputs := [
        { name := "COSTUME", source := .rest 0, kind := .menu, default? := some "costume1",
          menuOpcode := some "looks_costume", menuField := some "COSTUME" }] },
    { name := "switch_backdrop_to", opcode? := some "looks_switchbackdropto",
      inputs := [
        { name := "BACKDROP", source := .rest 0, kind := .menu, default? := some "backdrop1",
          menuOpcode := some "looks_backdrops", menuField := some "BACKDROP" }] },
    { name := "change_size_by", opcode? := some "looks_changesizeby",
      inputs := [
        { name := "CHANGE", source := .index 0, default? := some "10" }] },
    { name := "set_size_to", opcode? := some "looks_setsizeto",
      inputs := [
        { name := "SIZE", source := .index 0, default? := some "100" }] },
    { name := "set_effect_to", opcode? := some "looks_seteffectto",
      fields := [
        { name := "EFFECT", source := .index 0, default? := some "COLOR",
          options := ["COLOR", "FISHEYE", "WHIRL", "PIXELATE", "MOSAIC", "BRIGHTNESS", "GHOST"],
          uppercase := true }],
      inputs := [
        { name := "VALUE", source := .index 1, default? := some "0" }] },
    { name := "change_effect_by", opcode? := some "looks_changeeffectby",
      fields := [
        { name := "EFFECT", source := .index 0, default? := some "COLOR",
          options := ["COLOR", "FISHEYE", "WHIRL", "PIXELATE", "MOSAIC", "BRIGHTNESS", "GHOST"],
          uppercase := true }],
      inputs := [
        { name := "CHANGE", source := .index 1, default? := some "25" }] },
    { name := "clear_graphic_effects", opcode? := some "looks_cleargraphiceffects" },
    { name := "go_to_layer", opcode? := some "looks_gotofrontback",
      fields := [
        { name := "FRONT_BACK", source := .index 0, default? := some "front",
          options := ["front", "back"] }] },
    { name := "size", opcode? := some "looks_size", kind := .reporter }]

/-- Commands about the volume and sounds. -/
def sounds : List Command :=
  [
    { name := "stop_all_sounds", opcode? := some "sound_stopallsounds" },
    { name := "change_volume_by", opcode? := some "sound_changevolumeby",
      inputs := [
        { name := "VOLUME", source := .index 0, default? := some "-10" }] },
    { name := "set_volume_to", opcode? := some "sound_setvolumeto",
      inputs := [
        { name := "VOLUME", source := .index 0, default? := some "100" }] }]

/-- Commands that repeat, choose, wait and clone. -/
def controls : List Command :=
  [
    { name := "start_as_clone", opcode? := some "control_start_as_clone", kind := .hat },
    { name := "wait", opcode? := some "control_wait",
      inputs := [
        { name := "DURATION", source := .index 0, default? := some "1" }] },
    { name := "repeat", opcode? := some "control_repeat", kind := .nesting,
      inputs := [
        { name := "TIMES", source := .index 0, kind := .integer, default? := some "10" }] },
    { name := "forever", opcode? := some "control_forever", kind := .nesting },
    { name := "if", opcode? := some "control_if", kind := .nesting,
      inputs := [
        { name := "CONDITION", source := .index 0, kind := .boolean }] },
    { name := "if_else", opcode? := some "control_if_else", kind := .nesting,
      stackInputs := ["SUBSTACK", "SUBSTACK2"],
      inputs := [
        { name := "CONDITION", source := .index 0, kind := .boolean }] },
    { name := "repeat_until", opcode? := some "control_repeat_until", kind := .nesting,
      inputs := [
        { name := "CONDITION", source := .index 0, kind := .boolean }] },
    { name := "wait_until", opcode? := some "control_wait_until",
      inputs := [
        { name := "CONDITION", source := .index 0, kind := .boolean }] },
    { name := "stop", opcode? := some "control_stop",
      fields := [
        { name := "STOP_OPTION", source := .rest 0, default? := some "all",
          options := ["all", "this script", "other scripts in sprite"] }] },
    { name := "create_clone_of", opcode? := some "control_create_clone_of",
      inputs := [
        { name := "CLONE_OPTION", source := .index 0, kind := .menu, default? := some "_myself_",
          menuOpcode := some "control_create_clone_of_menu", menuField := some "CLONE_OPTION" }] },
    { name := "delete_this_clone", opcode? := some "control_delete_this_clone" }]

/-- Commands that ask about the surroundings. -/
def sensing : List Command :=
  [
    { name := "ask", opcode? := some "sensing_askandwait",
      inputs := [
        { name := "QUESTION", source := .rest 0, kind := .text,
          default? := some "What's your name?" }] },
    { name := "reset_timer", opcode? := some "sensing_resettimer" },
    { name := "answer", opcode? := some "sensing_answer", kind := .reporter },
    { name := "timer", opcode? := some "sensing_timer", kind := .reporter },
    { name := "mouse_x", opcode? := some "sensing_mousex", kind := .reporter },
    { name := "mouse_y", opcode? := some "sensing_mousey", kind := .reporter },
    { name := "loudness", opcode? := some "sensing_loudness", kind := .reporter },
    { name := "mouse_down", opcode? := some "sensing_mousedown", kind := .boolean },
    { name := "key_pressed", opcode? := some "sensing_keypressed", kind := .boolean,
      inputs := [
        { name := "KEY_OPTION", source := .index 0, kind := .menu, default? := some "space",
          menuOpcode := some "sensing_keyoptions", menuField := some "KEY_OPTION" }] },
    { name := "touching", opcode? := some "sensing_touchingobject", kind := .boolean,
      inputs := [
        { name := "TOUCHINGOBJECTMENU", source := .index 0, kind := .menu,
          default? := some "_mouse_", menuOpcode := some "sensing_touchingobjectmenu",
          menuField := some "TOUCHINGOBJECTMENU" }] },
    { name := "distance_to", opcode? := some "sensing_distanceto", kind := .reporter,
      inputs := [
        { name := "DISTANCETOMENU", source := .index 0, kind := .menu,
          default? := some "_mouse_", menuOpcode := some "sensing_distancetomenu",
          menuField := some "DISTANCETOMENU" }] }]

/-- Arithmetic, logic and text. -/
def operators : List Command :=
  [
    { name := "add", opcode? := some "operator_add", kind := .reporter,
      inputs := [
        { name := "NUM1", source := .index 0, default? := some "0" },
        { name := "NUM2", source := .index 1, default? := some "0" }] },
    { name := "subtract", opcode? := some "operator_subtract", kind := .reporter,
      inputs := [
        { name := "NUM1", source := .index 0, default? := some "0" },
        { name := "NUM2", source := .index 1, default? := some "0" }] },
    { name := "multiply", opcode? := some "operator_multiply", kind := .reporter,
      inputs := [
        { name := "NUM1", source := .index 0, default? := some "0" },
        { name := "NUM2", source := .index 1, default? := some "0" }] },
    { name := "divide", opcode? := some "operator_divide", kind := .reporter,
      inputs := [
        { name := "NUM1", source := .index 0, default? := some "0" },
        { name := "NUM2", source := .index 1, default? := some "1" }] },
    { name := "mod", opcode? := some "operator_mod", kind := .reporter,
      inputs := [
        { name := "NUM1", source := .index 0, default? := some "0" },
        { name := "NUM2", source := .index 1, default? := some "1" }] },
    { name := "random", opcode? := some "operator_random", kind := .reporter,
      inputs := [
        { name := "FROM", source := .index 0, default? := some "1" },
        { name := "TO", source := .index 1, default? := some "10" }] },
    { name := "round", opcode? := some "operator_round", kind := .reporter,
      inputs := [
        { name := "NUM", source := .index 0, default? := some "0" }] },
    { name := "math", opcode? := some "operator_mathop", kind := .reporter,
      fields := [
        { name := "OPERATOR", source := .index 0, default? := some "abs",
          options := ["abs", "floor", "ceiling", "sqrt", "sin", "cos", "tan", "asin",
            "acos", "atan", "ln", "log"] }],
      inputs := [
        { name := "NUM", source := .index 1, default? := some "0" }] },
    { name := "join", opcode? := some "operator_join", kind := .reporter,
      inputs := [
        { name := "STRING1", source := .index 0, kind := .text, default? := some "apple " },
        { name := "STRING2", source := .index 1, kind := .text, default? := some "banana" }] },
    { name := "letter_of", opcode? := some "operator_letter_of", kind := .reporter,
      inputs := [
        { name := "LETTER", source := .index 0, kind := .integer, default? := some "1" },
        { name := "STRING", source := .index 1, kind := .text, default? := some "apple" }] },
    { name := "length", opcode? := some "operator_length", kind := .reporter,
      inputs := [
        { name := "STRING", source := .index 0, kind := .text, default? := some "apple" }] },
    { name := "contains", opcode? := some "operator_contains", kind := .boolean,
      inputs := [
        { name := "STRING1", source := .index 0, kind := .text, default? := some "apple" },
        { name := "STRING2", source := .index 1, kind := .text, default? := some "a" }] },
    { name := "gt", opcode? := some "operator_gt", kind := .boolean,
      inputs := [
        { name := "OPERAND1", source := .index 0, kind := .text },
        { name := "OPERAND2", source := .index 1, kind := .text, default? := some "50" }] },
    { name := "lt", opcode? := some "operator_lt", kind := .boolean,
      inputs := [
        { name := "OPERAND1", source := .index 0, kind := .text },
        { name := "OPERAND2", source := .index 1, kind := .text, default? := some "50" }] },
    { name := "equals", opcode? := some "operator_equals", kind := .boolean,
      inputs := [
        { name := "OPERAND1", source := .index 0, kind := .text },
        { name := "OPERAND2", source := .index 1, kind := .text, default? := some "50" }] },
    { name := "and", opcode? := some "operator_and", kind := .boolean,
      inputs := [
        { name := "OPERAND1", source := .index 0, kind := .boolean },
        { name := "OPERAND2", source := .index 1, kind := .boolean }] },
    { name := "or", opcode? := some "operator_or", kind := .boolean,
      inputs := [
        { name := "OPERAND1", source := .index 0, kind := .boolean },
        { name := "OPERAND2", source := .index 1, kind := .boolean }] },
    { name := "not", opcode? := some "operator_not", kind := .boolean,
      inputs := [
        { name := "OPERAND", source := .index 0, kind := .boolean }] }]

/-- Commands about variables and lists. -/
def symbolCommands : List Command :=
  [
    { name := "set_var", opcode? := some "data_setvariableto",
      fields := [
        { name := "VARIABLE", source := .index 0, default? := some "my variable",
          symbols := some .vars }],
      inputs := [
        { name := "VALUE", source := .rest 1, kind := .text, default? := some "0" }] },
    { name := "change_var", opcode? := some "data_changevariableby",
      fields := [
        { name := "VARIABLE", source := .index 0, default? := some "my variable",
          symbols := some .vars }],
      inputs := [
        { name := "VALUE", source := .index 1, default? := some "1" }] },
    { name := "show_variable", opcode? := some "data_showvariable",
      fields := [
        { name := "VARIABLE", source := .index 0, default? := some "my variable",
          symbols := some .vars }] },
    { name := "hide_variable", opcode? := some "data_hidevariable",
      fields := [
        { name := "VARIABLE", source := .index 0, default? := some "my variable",
          symbols := some .vars }] },
    { name := "add_to_list", opcode? := some "data_addtolist",
      fields := [
        { name := "LIST", source := .index 0, default? := some "my list",
          symbols := some .lists }],
      inputs := [
        { name := "ITEM", source := .rest 1, kind := .text, default? := some "thing" }] },
    { name := "delete_of_list", opcode? := some "data_deleteoflist",
      fields := [
        { name := "LIST", source := .index 0, default? := some "my list",
          symbols := some .lists }],
      inputs := [
        { name := "INDEX", source := .index 1, kind := .integer, default? := some "1" }] },
    { name := "delete_all_of_list", opcode? := some "data_deletealloflist",
      fields := [
        { name := "LIST", source := .index 0, default? := some "my list",
          symbols := some .lists }] },
    { name := "insert_at_list", opcode? := some "data_insertatlist",
      fields := [
        { name := "LIST", source := .index 0, default? := some "my list",
          symbols := some .lists }],
      inputs := [
        { name := "INDEX", source := .index 1, kind := .integer, default? := some "1" },
        { name := "ITEM", source := .rest 2, kind := .text, default? := some "thing" }] },
    { name := "replace_item_of_list", opcode? := some "data_replaceitemoflist",
      fields := [
        { name := "LIST", source := .index 0, default? := some "my list",
          symbols := some .lists }],
      inputs := [
        { name := "INDEX", source := .index 1, kind := .integer, default? := some "1" },
        { name := "ITEM", source := .rest 2, kind := .text, default? := some "thing" }] },
    { name := "var", opcode? := some "data_variable", kind := .reporter,
      fields := [
        { name := "VARIABLE", source := .index 0, default? := some "my variable",
          symbols := some .vars }] },
    { name := "list_item", opcode? := some "data_itemoflist", kind := .reporter,
      fields := [
        { name := "LIST", source := .index 0, default? := some "my list",
          symbols := some .lists }],
      inputs := [
        { name := "INDEX", source := .index 1, kind := .integer, default? := some "1" }] },
    { name := "list_length", opcode? := some "data_lengthoflist", kind := .reporter,
      fields := [
        { name := "LIST", source := .index 0, default? := some "my list",
          symbols := some .lists }] },
    { name := "list_contains", opcode? := some "data_listcontainsitem", kind := .boolean,
      fields := [
        { name := "LIST", source := .index 0, default? := some "my list",
          symbols := some .lists }],
      inputs := [
        { name := "ITEM", source := .index 1, kind := .text, default? := some "thing" }] }]

/-- Commands of the pen extension. -/
def pen : List Command :=
  [
    { name := "erase_all", opcode? := some "pen_clear", extension? := some "pen" },
    { name := "stamp", opcode? := some "pen_stamp", extension? := some "pen" },
    { name := "pen_down", opcode? := some "pen_penDown", extension? := some "pen" },
    { name := "pen_up", opcode? := some "pen_penUp", extension? := some "pen" },
    { name := "set_pen_color_to", opcode? := some "pen_setPenColorToColor",
      extension? := some "pen",
      inputs := [
        { name := "COLOR", source := .index 0, kind := .color, default? := some "#ff0000" }] },
    { name := "change_pen_size_by", opcode? := some "pen_changePenSizeBy",
      extension? := some "pen",
      inputs := [
        { name := "SIZE", source := .index 0, default? := some "1" }] },
    { name := "set_pen_size_to", opcode? := some "pen_setPenSizeTo", extension? := some "pen",
      inputs := [
        { name := "SIZE", source := .index 0, default? := some "1" }] }]

/-- Words that make no block of their own, and procedures. -/
def structural : List Command :=
  [
    { name := "else", kind := .otherwise },
    { name := "end", kind := .finish },
    { name := "make_var", kind := .declare },
    { name := "make_list", kind := .declare },
    { name := "make_broadcast", kind := .declare },
    { name := "define", opcode? := some "procedures_definition", kind := .define },
    { name := "call", opcode? := some "procedures_call", kind := .call },
    { name := "arg", opcode? := some "argument_reporter_string_number", kind := .reporter,
      fields := [
        { name := "VALUE", source := .index 0 }] },
    { name := "arg_bool", opcode? := some "argument_reporter_boolean", kind := .boolean,
      fields := [
        { name := "VALUE", source := .index 0 }] }]

/-- Other words for some commands. -/
def builtinAliases : List (String × String) :=
  [("when_green_flag", "when_flag_clicked"), ("when_flag", "when_flag_clicked"),
    ("when_clicked", "when_this_sprite_clicked"), ("when_key", "when_key_pressed"),
    ("when_receive", "when_broadcast_received"), ("when_i_receive", "when_broadcast_received"),
    ("forward", "move"), ("right", "turn_right"), ("left", "turn_left"), ("goto_xy", "go_to_xy"),
    ("glide", "glide_to_xy"), ("point", "point_in_direction"), ("bounce", "if_on_edge_bounce"),
    ("costume", "switch_costume_to"), ("backdrop", "switch_backdrop_to"), ("ifelse", "if_else"),
    ("until", "repeat_until"), ("set", "set_var"), ("change", "change_var"),
    ("variable", "make_var"), ("list", "make_list"), ("message", "make_broadcast"),
    ("clear", "erase_all"), ("item", "list_item"), ("clone", "create_clone_of")]

/-- All built-in commands. -/
def builtinCommands : List Command :=
  events ++ motion ++ looks ++ sounds ++ controls ++
    sensing ++ operators ++ symbolCommands ++ pen ++ structural

/-- The catalog used when no other is given. -/
def builtin : Catalog where
  commands := Dict.ofList (builtinCommands.map fun command ↦ (command.name, command))
  aliases := Dict.ofList builtinAliases

end BlockScript.Catalog
