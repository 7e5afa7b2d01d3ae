import Bitty.Library.Checks
import Bitty.Library.Pattern

/-! Key chords, the shipped map, and the table of bindings that a configuration makes of it. -/

namespace Bitty.Config

open Text

inductive ConfigError
  | validation (field message : Text)
  | invalidInput (message : Text)
  deriving DecidableEq

def ConfigError.display : ConfigError → Text
  | validation field message => "validation error at '".toList ++ field ++ "': ".toList ++ message
  | invalidInput message => "invalid input: ".toList ++ message

def MAX_CHORD_LEN : Nat := 64

def GLOBAL_CONTEXT : Text := "global".toList

def PREFIX_KEYWORD : Text := "leader".toList

inductive KeyName
  | tab | enter | escape | space | backspace | delete | insert | home | «end» | pageUp | pageDown | up | down | left | right
  | f (n : UInt8)
  | char (c : Char)
  deriving DecidableEq

def KeyName.canonical : KeyName → Text
  | tab => "tab".toList
  | enter => "enter".toList
  | escape => "escape".toList
  | space => "space".toList
  | backspace => "backspace".toList
  | delete => "delete".toList
  | insert => "insert".toList
  | home => "home".toList
  | «end» => "end".toList
  | pageUp => "pageup".toList
  | pageDown => "pagedown".toList
  | up => "up".toList
  | down => "down".toList
  | left => "left".toList
  | right => "right".toList
  | f n => 'f' :: number n.toNat
  | char c => [c]

def KeyName.isModifierName (token : Text) : Bool :=
  token ∈ ["shift", "ctrl", "control", "alt", "opt", "option", "super", "meta", "cmd", "command", "win", "windows", "hyper",
    "altgraph", "alt_graph"].map String.toList

structure Chord where
  ctrl : Bool
  alt : Bool
  shift : Bool
  superHeld : Bool
  key : KeyName
  deriving DecidableEq

def held (is : Bool) (word : Text) : Text := if is then word else []

def Chord.canonical (chord : Chord) : Text :=
  held chord.ctrl "ctrl+".toList ++ (held chord.alt "alt+".toList ++ (held chord.shift "shift+".toList ++
    (held chord.superHeld "super+".toList ++ chord.key.canonical)))

def KNOWN_KEYS_HINT : Text :=
  "expected a named key (tab, enter, escape, space, backspace, delete, insert, home, end, pageup, pagedown, up, down, ".toList ++
    "left, right, f1..f35) or one ASCII character".toList

def invalidChord (message : Text) : ConfigError := .validation "keymaps[].chord".toList message

def chordError (trimmed : Text) (message : String) : ConfigError :=
  invalidChord ("chord '".toList ++ trimmed ++ "' ".toList ++ message.toList)

def keyError (kind : String) (token rawChord : Text) : ConfigError :=
  invalidChord (kind.toList ++ " key '".toList ++ token ++ "' in chord '".toList ++ rawChord ++ "'; ".toList ++ KNOWN_KEYS_HINT)

/-- The spellings of the named keys, and of the characters that `+` cannot be split around. -/
def keyNames : List (List String × KeyName) :=
  [(["tab"], .tab), (["enter", "return"], .enter), (["escape", "esc"], .escape), (["space", "spacebar"], .space),
    (["backspace", "bs"], .backspace), (["delete", "del"], .delete), (["insert", "ins"], .insert), (["home", "hm"], .home),
    (["end"], .end), (["pageup", "pgup", "pu"], .pageUp), (["pagedown", "pgdn", "pd"], .pageDown),
    (["up", "arrowup", "arrow_up", "arrow-up"], .up), (["down", "arrowdown", "arrow_down", "arrow-down"], .down),
    (["left", "arrowleft", "arrow_left", "arrow-left"], .left), (["right", "arrowright", "arrow_right", "arrow-right"], .right),
    (["plus"], .char '+'), (["minus"], .char '-'), (["equal", "equals", "eq"], .char '='), (["underscore"], .char '_')]

def namedKey (token : Text) : Option KeyName := (keyNames.find? fun x => token ∈ x.1.map String.toList).map (·.2)

def parseKeyToken (token rawChord : Text) : Except ConfigError KeyName :=
  match namedKey token with
  | some key => .ok key
  | none =>
    if KeyName.isModifierName token then .error (chordError rawChord "names only modifiers; add one key (e.g. 'alt+h')")
    else
      match token with
      | [c] =>
        if 0x21 ≤ c.toNat ∧ c.toNat ≤ 0x7E ∧ c ≠ '+' then .ok (.char c.toLower) else .error (keyError "unsupported" token rawChord)
      | 'f' :: n =>
        match parseUnsigned 255 n with
        | some num => if 1 ≤ num ∧ num ≤ 35 then .ok (.f num.toUInt8) else .error (keyError "unknown" token rawChord)
        | none => .error (keyError "unknown" token rawChord)
      | _ => .error (keyError "unknown" token rawChord)

structure ChordParts where
  ctrl : Bool := false
  alt : Bool := false
  shift : Bool := false
  superHeld : Bool := false
  key : Option KeyName := none

def ChordParts.token (trimmed : Text) (parts : ChordParts) (token : Text) : Except ConfigError ChordParts :=
  if token = [] then
    .error (chordError trimmed "has an empty segment (did you mean 'keymaps[].chord'? check '+' placement)")
  else if token ∈ ["ctrl", "control"].map String.toList then
    if parts.ctrl then .error (chordError trimmed "repeats modifier 'ctrl'") else .ok { parts with ctrl := true }
  else if token ∈ ["alt", "opt", "option"].map String.toList then
    if parts.alt then .error (chordError trimmed "repeats modifier 'alt'") else .ok { parts with alt := true }
  else if token = "shift".toList then
    if parts.shift then .error (chordError trimmed "repeats modifier 'shift'") else .ok { parts with shift := true }
  else if token ∈ ["super", "meta", "cmd", "command", "win", "windows"].map String.toList then
    if parts.superHeld then .error (chordError trimmed "repeats modifier 'super'") else .ok { parts with superHeld := true }
  else if parts.key.isSome then .error (chordError trimmed "has more than one key; use '<mod>+...+<key>'")
  else (parseKeyToken token trimmed).map fun key => { parts with key := some key }

def ChordParts.finish (trimmed : Text) (parts : ChordParts) : Except ConfigError Chord :=
  match parts.key with
  | none => .error (chordError trimmed "names only modifiers; add one key (e.g. 'alt+h')")
  | some key =>
    let bare := !(parts.ctrl || parts.alt || parts.shift || parts.superHeld)
    let single := match key with
      | .char _ => true
      | _ => false
    if single && bare then
      .error (invalidChord ("single-character chord '".toList ++ trimmed ++ "' must include a modifier (e.g. 'ctrl+".toList ++
        trimmed ++ "'); unmodified keys go to the shell".toList))
    else .ok ⟨parts.ctrl, parts.alt, parts.shift, parts.superHeld, key⟩

def Chord.parse (raw : Text) : Except ConfigError Chord :=
  let trimmed := trim raw
  if trimmed = [] then .error (invalidChord "must not be empty".toList)
  else if MAX_CHORD_LEN < byteLen trimmed then
    .error (invalidChord ("must be <= ".toList ++ number MAX_CHORD_LEN ++ " bytes".toList))
  else do
    let parts ← (trimmed.splitOn '+').foldlM (fun parts part => ChordParts.token trimmed parts (lower (trim part))) {}
    ChordParts.finish trimmed parts

def MAX_ACTION_LEN : Nat := 320

def MAX_COMMAND_ACTION_LEN : Nat := 8 + 257 + 4 + 4096

def MAX_FOCUS_ID : Nat := 256

def MAX_WORKSPACE_INDEX : Nat := 16

def actionError (message : Text) : ConfigError := .validation "keymaps[].action".toList message

def KNOWN_ACTIONS_HINT : Text :=
  ("expected one of goto_split:<left|right|up|down>, new_split:<left|right|up|down>, new_panel, " ++
    "resize_split:<left|right|up|down>, close_view, toggle_zoom, toggle_help, focus_next, focus_prev, focus:<1..=256>, " ++
    "copy_to_clipboard, paste_from_clipboard, paste_from_primary, scroll_page_up, scroll_page_down, increase_font_size, " ++
    "decrease_font_size, reset_font_size, open_composer, fold_toggle, fold_expand, fold_collapse, workspace_new, " ++
    "workspace_close, workspace_prev, workspace_next, workspace_last, workspace_next_occupied, workspace_prev_occupied, " ++
    "workspace_focus:<1..=16>, workspace_move:<1..=16>, workspace_swap:<1..=16>, jump_to_prompt:<prev|next>, " ++
    "select_command_output, toggle_palette, toggle_floating, toggle_pinned, command:<owner:command>").toList

inductive SplitDir
  | left | right | up | down
  deriving DecidableEq

def SplitDir.parse (raw : Text) : Except ConfigError SplitDir :=
  let other := lower (trim raw)
  if other = "left".toList then .ok .left
  else if other = "right".toList then .ok .right
  else if other = "up".toList then .ok .up
  else if other = "down".toList then .ok .down
  else .error (actionError ("unknown split direction '".toList ++ other ++ "'; expected one of left, right, up, down".toList))

inductive CatalogAction
  | gotoSplit (dir : SplitDir) | newSplit (dir : SplitDir) | newPanel | resizeSplit (dir : SplitDir) | closeView | toggleZoom
  | toggleHelp | focusNext | focusPrev | focusId (n : Nat) | copyToClipboard | pasteFromClipboard | pasteFromPrimary
  | scrollPageUp | scrollPageDown | increaseFontSize | decreaseFontSize | resetFontSize | openComposer | foldToggle | foldExpand
  | foldCollapse | workspaceNew | workspaceClose | workspacePrev | workspaceNext | workspaceLast | workspaceNextOccupied
  | workspacePrevOccupied | workspaceFocus (n : Nat) | workspaceMove (n : Nat) | workspaceSwap (n : Nat) | jumpToPromptPrev
  | jumpToPromptNext | selectCommandOutput | togglePalette | toggleFloating | togglePinned
  deriving DecidableEq

inductive ChromeAction (ι : Type)
  | catalog (action : CatalogAction)
  | invokeCommand (invocation : ι)
  deriving DecidableEq

inductive ActionArm
  | bare (action : CatalogAction)
  | dir (make : SplitDir → CatalogAction)
  | focus
  | index (make : Nat → CatalogAction)
  | prompt
  | command

def requireDirArg (arg : Option Text) (raw : Text) : Except ConfigError SplitDir :=
  match arg with
  | none | some [] => .error (actionError ("action '".toList ++ raw ++ "' needs a direction (e.g. '".toList ++ raw ++ ":left')".toList))
  | some d => SplitDir.parse d

def rejectArg (arg : Option Text) (raw : Text) : Except ConfigError Unit :=
  match arg with
  | none | some [] => .ok ()
  | some _ => .error (actionError ("action '".toList ++ raw ++ "' takes no argument".toList))

/-- A number from one on, where `what` is required. -/
def requireNumber (max : Nat) (what eg : String) (arg : Option Text) (raw : Text) : Except ConfigError Nat :=
  match arg with
  | none | some [] => .error (actionError ("action '".toList ++ raw ++ "' needs a ".toList ++ what.toList ++ eg.toList))
  | some n =>
    match (parseUnsigned (2 ^ 64 - 1) n).filter fun id => 1 ≤ id ∧ id ≤ max with
    | some id => .ok id
    | none =>
      .error (actionError ("action '".toList ++ raw ++ "' needs a ".toList ++ what.toList ++ " 1..=".toList ++ number max ++ eg.toList))

def requireFocusId := requireNumber MAX_FOCUS_ID "view id" " (e.g. 'focus:2')"

def requireWorkspaceIndex := requireNumber MAX_WORKSPACE_INDEX "workspace index" " (e.g. 'workspace_focus:2')"

def actionArms : List (List String × ActionArm) :=
  [(["goto_split"], .dir .gotoSplit), (["new_split"], .dir .newSplit), (["new_panel"], .bare .newPanel),
    (["resize_split"], .dir .resizeSplit),
    (["close_view", "close_surface", "close_panel", "exit_panel", "close_focused_panel"], .bare .closeView),
    (["toggle_zoom", "toggle_split_zoom", "suspend_panel", "detach_panel", "suspend_focused_panel", "detach_focused_panel"],
      .bare .toggleZoom),
    (["toggle_help", "show_help"], .bare .toggleHelp), (["focus_next"], .bare .focusNext), (["focus_prev"], .bare .focusPrev),
    (["focus"], .focus), (["copy_to_clipboard"], .bare .copyToClipboard),
    (["paste_from_clipboard"], .bare .pasteFromClipboard), (["paste_from_primary"], .bare .pasteFromPrimary),
    (["scroll_page_up"], .bare .scrollPageUp), (["scroll_page_down"], .bare .scrollPageDown),
    (["increase_font_size", "zoom_in", "font_zoom_in"], .bare .increaseFontSize),
    (["decrease_font_size", "zoom_out", "font_zoom_out"], .bare .decreaseFontSize),
    (["reset_font_size", "zoom_reset", "font_zoom_reset"], .bare .resetFontSize), (["open_composer"], .bare .openComposer),
    (["fold_toggle", "toggle_fold"], .bare .foldToggle), (["fold_expand", "expand_fold"], .bare .foldExpand),
    (["fold_collapse", "collapse_fold"], .bare .foldCollapse), (["workspace_new"], .bare .workspaceNew),
    (["workspace_close"], .bare .workspaceClose), (["workspace_prev"], .bare .workspacePrev),
    (["workspace_next"], .bare .workspaceNext), (["workspace_last"], .bare .workspaceLast),
    (["workspace_next_occupied", "workspace_cycle_next", "workspace_cycle_next_occupied"], .bare .workspaceNextOccupied),
    (["workspace_prev_occupied", "workspace_cycle_prev", "workspace_cycle_prev_occupied"], .bare .workspacePrevOccupied),
    (["workspace_focus"], .index .workspaceFocus), (["workspace_move", "workspace_move_window"], .index .workspaceMove),
    (["workspace_swap"], .index .workspaceSwap), (["jump_to_prompt"], .prompt),
    (["jump_to_prompt_prev", "prompt_prev"], .bare .jumpToPromptPrev),
    (["jump_to_prompt_next", "prompt_next"], .bare .jumpToPromptNext),
    (["select_command_output", "select_output"], .bare .selectCommandOutput),
    (["toggle_palette", "open_palette", "palette_toggle"], .bare .togglePalette),
    (["toggle_floating", "floating_toggle"], .bare .toggleFloating), (["toggle_pinned", "pinned_toggle"], .bare .togglePinned),
    (["command", "invoke_command", "run_command"], .command)]

def ActionArm.read (arg : Option Text) (trimmed : Text) : ActionArm → Except ConfigError (CatalogAction ⊕ Text)
  | bare action => (rejectArg arg trimmed).map fun _ => .inl action
  | dir make => (requireDirArg arg trimmed).map (.inl ∘ make)
  | focus => (requireFocusId arg trimmed).map (.inl ∘ .focusId)
  | index make => (requireWorkspaceIndex arg trimmed).map (.inl ∘ make)
  | prompt =>
    if arg ∈ ["prev", "previous", "up"].map fun word => some word.toList then .ok (.inl .jumpToPromptPrev)
    else if arg ∈ ["next", "down"].map fun word => some word.toList then .ok (.inl .jumpToPromptNext)
    else .error (actionError ("action '".toList ++ trimmed ++ "' needs a direction (e.g. 'jump_to_prompt:prev')".toList))
  | command => .ok (.inr (trim (((splitOnce ':' trimmed).map (·.2)).getD [])))

def readAction (trimmed : Text) : Except ConfigError (CatalogAction ⊕ Text) :=
  let lowered := lower trimmed
  let (head, arg) := match splitOnce ':' lowered with
    | some (h, a) => (trim h, some (trim a))
    | none => (lowered, none)
  let limit :=
    if head ∈ ["command", "invoke_command", "run_command"].map String.toList then MAX_COMMAND_ACTION_LEN else MAX_ACTION_LEN
  if trimmed = [] then .error (actionError "must not be empty".toList)
  else if limit < byteLen trimmed then .error (actionError ("must be <= ".toList ++ number limit ++ " bytes".toList))
  else
    match actionArms.find? fun arm => head ∈ arm.1.map String.toList with
    | some arm => arm.2.read arg trimmed
    | none => .error (actionError ("unknown action '".toList ++ trimmed ++ "'; ".toList ++ KNOWN_ACTIONS_HINT))

def ChromeAction.parse {ι : Type} (invoke : Text → Text → Except ConfigError ι) (raw : Text) :
    Except ConfigError (ChromeAction ι) := do
  match ← readAction (trim raw) with
  | .inl action => return .catalog action
  | .inr tail => (invoke tail (trim raw)).map .invokeCommand

inductive ModKey
  | alt | super
  deriving DecidableEq

def ModKey.applyTo (modKey : ModKey) (chord : Chord) : Chord :=
  if !chord.alt then chord
  else
    match modKey with
    | alt => chord
    | super => { chord with alt := false, superHeld := true }

structure KeyRef where
  key : KeyName
  ctrl : Bool
  alt : Bool
  shift : Bool
  superHeld : Bool

def KeyRef.matchesChord (key : KeyRef) (chord : Chord) : Bool :=
  key.key = chord.key && key.ctrl = chord.ctrl && key.alt = chord.alt && key.shift = chord.shift && key.superHeld = chord.superHeld

structure ResolvedKeymap (ι : Type) where
  chord : Chord
  action : ChromeAction ι
  context : Text
  fromDefault : Bool
  deriving DecidableEq

def ResolvedKeymap.id {ι : Type} (k : ResolvedKeymap ι) : Text := k.context ++ "::".toList ++ k.chord.canonical

def DEFAULT_KEYMAPS : List (String × String) :=
  [("alt+h", "goto_split:left"), ("alt+j", "goto_split:down"), ("alt+k", "goto_split:up"), ("alt+l", "goto_split:right"),
    ("alt+left", "goto_split:left"), ("alt+down", "goto_split:down"), ("alt+up", "goto_split:up"),
    ("alt+right", "goto_split:right"), ("alt+1", "workspace_focus:1"), ("alt+2", "workspace_focus:2"),
    ("alt+3", "workspace_focus:3"), ("alt+4", "workspace_focus:4"), ("alt+5", "workspace_focus:5"),
    ("alt+6", "workspace_focus:6"), ("alt+7", "workspace_focus:7"), ("alt+8", "workspace_focus:8"),
    ("alt+9", "workspace_focus:9"), ("shift+alt+1", "workspace_move:1"), ("shift+alt+2", "workspace_move:2"),
    ("shift+alt+3", "workspace_move:3"), ("shift+alt+4", "workspace_move:4"), ("shift+alt+5", "workspace_move:5"),
    ("shift+alt+6", "workspace_move:6"), ("shift+alt+7", "workspace_move:7"), ("shift+alt+8", "workspace_move:8"),
    ("shift+alt+9", "workspace_move:9"), ("ctrl+shift+alt+1", "workspace_swap:1"), ("ctrl+shift+alt+2", "workspace_swap:2"),
    ("ctrl+shift+alt+3", "workspace_swap:3"), ("ctrl+shift+alt+4", "workspace_swap:4"),
    ("ctrl+shift+alt+5", "workspace_swap:5"), ("ctrl+shift+alt+6", "workspace_swap:6"),
    ("ctrl+shift+alt+7", "workspace_swap:7"), ("ctrl+shift+alt+8", "workspace_swap:8"),
    ("ctrl+shift+alt+9", "workspace_swap:9"), ("alt+u", "scroll_page_down"), ("alt+i", "scroll_page_up"),
    ("ctrl+alt+left", "goto_split:left"), ("ctrl+alt+right", "goto_split:right"), ("ctrl+alt+up", "goto_split:up"),
    ("ctrl+alt+down", "goto_split:down"), ("ctrl+tab", "focus_next"), ("ctrl+shift+tab", "focus_prev"),
    ("shift+alt+h", "new_split:left"), ("shift+alt+j", "new_split:down"), ("shift+alt+k", "new_split:up"),
    ("shift+alt+l", "new_split:right"), ("shift+alt+left", "new_split:left"), ("shift+alt+down", "new_split:down"),
    ("shift+alt+up", "new_split:up"), ("shift+alt+right", "new_split:right"), ("shift+ctrl+h", "resize_split:left"),
    ("shift+ctrl+j", "resize_split:down"), ("shift+ctrl+k", "resize_split:up"), ("shift+ctrl+l", "resize_split:right"),
    ("shift+ctrl+left", "resize_split:left"), ("shift+ctrl+down", "resize_split:down"), ("shift+ctrl+up", "resize_split:up"),
    ("shift+ctrl+right", "resize_split:right"), ("ctrl+shift+alt+h", "resize_split:left"),
    ("ctrl+shift+alt+j", "resize_split:down"), ("ctrl+shift+alt+k", "resize_split:up"),
    ("ctrl+shift+alt+l", "resize_split:right"), ("ctrl+shift+alt+left", "resize_split:left"),
    ("ctrl+shift+alt+down", "resize_split:down"), ("ctrl+shift+alt+up", "resize_split:up"),
    ("ctrl+shift+alt+right", "resize_split:right"), ("alt+d", "close_view"), ("alt+q", "close_view"),
    ("alt+w", "workspace_close"), ("alt+m", "toggle_zoom"), ("alt+f", "toggle_zoom"), ("ctrl+shift+c", "copy_to_clipboard"),
    ("ctrl+shift+v", "paste_from_clipboard"), ("alt+z", "toggle_zoom"), ("alt+n", "new_panel"), ("alt+a", "toggle_floating"),
    ("alt+t", "workspace_new"), ("alt+-", "workspace_prev"), ("alt+=", "workspace_next"), ("alt+tab", "workspace_last"),
    ("alt+[", "workspace_next_occupied"), ("alt+]", "workspace_prev_occupied"), ("ctrl+equal", "increase_font_size"),
    ("ctrl+plus", "increase_font_size"), ("ctrl+shift+equal", "increase_font_size"),
    ("ctrl+shift+plus", "increase_font_size"), ("ctrl+minus", "decrease_font_size"),
    ("ctrl+shift+minus", "decrease_font_size"), ("ctrl+0", "reset_font_size"), ("alt+`", "toggle_help"),
    ("alt+?", "toggle_help"), ("alt+shift+?", "toggle_help"), ("alt+shift+/", "toggle_help"),
    ("shift+alt+pageup", "jump_to_prompt:prev"), ("shift+alt+pagedown", "jump_to_prompt:next"),
    ("alt+o", "select_command_output")]

structure KeymapEntry where
  chord : Text
  action : Text
  context : Text

structure EffectiveConfig where
  modKey : ModKey
  keymaps : List KeymapEntry

def validateContext (raw : Text) : Except ConfigError Text :=
  let normalized := lower (trim raw)
  if normalized = [] then .error (.validation "keymaps[].context".toList "must not be empty".toList)
  else if normalized ≠ GLOBAL_CONTEXT then
    .error (.validation "keymaps[].context".toList ("unknown context '".toList ++ raw ++ "'; only 'global' is supported".toList))
  else .ok GLOBAL_CONTEXT

def isPrefixEntryShape (raw : Text) : Bool :=
  match (raw.splitOnP isWhitespace).filter (· ≠ []) with
  | [first, _] => lower first = PREFIX_KEYWORD
  | _ => false

def duplicateKeymap (id : Text) : ConfigError :=
  .validation "keymaps".toList ("duplicate keymap id '".toList ++ id ++ "'".toList)

def internalDefault {β : Type} (parsed : Except ConfigError β) : Except ConfigError β :=
  parsed.mapError fun e => .invalidInput ("internal default keymap invalid: ".toList ++ e.display)

section

variable {ι : Type} (invoke : Text → Text → Except ConfigError ι)

def defaultKeymap (modKey : ModKey) (shipped : String × String) : Except ConfigError (ResolvedKeymap ι) := do
  let chord ← internalDefault (Chord.parse shipped.1.toList)
  let action ← internalDefault (ChromeAction.parse invoke shipped.2.toList)
  return ⟨modKey.applyTo chord, action, GLOBAL_CONTEXT, true⟩

def defaultKeymapsWithMod (modKey : ModKey) : Except ConfigError (List (ResolvedKeymap ι)) :=
  DEFAULT_KEYMAPS.mapM (defaultKeymap invoke modKey)

def resolveEntry (entry : KeymapEntry) : Except ConfigError (ResolvedKeymap ι) := do
  let context ← validateContext entry.context
  let chord ← Chord.parse entry.chord
  let action ← ChromeAction.parse invoke entry.action
  return ⟨chord, action, context, false⟩

/-- The loop over the entries: each takes the place of what has its identity, and none comes twice. -/
def overlay : List KeymapEntry → List Text → List (ResolvedKeymap ι) → Except ConfigError (List (ResolvedKeymap ι))
  | [], _, table => .ok table
  | entry :: rest, seenUser, table =>
    if isPrefixEntryShape entry.chord then overlay rest seenUser table
    else do
      let resolved ← resolveEntry invoke entry
      if resolved.id ∈ seenUser then .error (duplicateKeymap resolved.id)
      else overlay rest (resolved.id :: seenUser) (table.filter (·.id ≠ resolved.id) ++ [resolved])

def resolveKeymaps (effective : EffectiveConfig) : Except ConfigError (List (ResolvedKeymap ι)) := do
  let table ← defaultKeymapsWithMod invoke effective.modKey
  let table ← overlay invoke effective.keymaps [] table
  return sortBy ResolvedKeymap.id table

end

def matchKeymap {ι : Type} (maps : List (ResolvedKeymap ι)) (key : KeyRef) : Option (ChromeAction ι) :=
  (maps.find? fun m => key.matchesChord m.chord).map (·.action)

/-! The canonical spelling names a chord. -/

section

variable {word x y : Text}

theorem held_inj {a b : Bool} (frontX : ¬word <+: x) (frontY : ¬word <+: y) (same : held a word ++ x = held b word ++ y) :
    a = b ∧ x = y := by
  cases a <;> cases b
  · exact ⟨rfl, same⟩
  · exact absurd ⟨y, same.symm⟩ frontX
  · exact absurd ⟨x, same⟩ frontY
  · exact ⟨rfl, List.append_cancel_left same⟩

theorem not_prefix_held (word other : Text) (long : 2 ≤ word.length ∧ 2 ≤ other.length) (apart : word.take 2 ≠ other.take 2)
    (is : Bool) (front : ¬word <+: x) : ¬word <+: held is other ++ x := by
  cases is with
  | false => exact front
  | true =>
    rintro ⟨rest, eq⟩
    have letters := congrArg (List.take 2) eq
    rw [held, if_pos rfl, List.take_append_of_le_length long.1, List.take_append_of_le_length long.2] at letters
    exact apart letters

theorem KeyName.length_of_plus {key : KeyName} (plus : '+' ∈ key.canonical) : key.canonical.length = 1 := by
  cases key with
  | char c => rfl
  | f n =>
    rcases List.mem_cons.mp plus with same | member
    · exact absurd same (by decide)
    · exact absurd member (not_mem_number rfl)
  | _ => exact absurd plus (by decide)

theorem KeyName.front (key : KeyName) (word : Text) (long : 2 ≤ word.length) (plus : '+' ∈ word) : ¬word <+: key.canonical := by
  intro front
  have alone := KeyName.length_of_plus (front.subset plus)
  have short := front.length_le
  omega

def KeyName.spelled (text : Text) : Option KeyName :=
  if text.length = 1 then text.head?.map .char
  else if text.head? = some 'f' then (parseUnsigned 255 text.tail).map fun num => .f num.toUInt8
  else namedKey text

theorem KeyName.spelled_f (n : UInt8) : KeyName.spelled ('f' :: number n.toNat) = some (.f n) := by
  have written : number n.toNat ≠ [] := fun none => by
    have pos := byteLen_number_pos n.toNat
    rw [none] at pos
    cases pos
  have long : ('f' :: number n.toNat).length ≠ 1 := by
    rw [List.length_cons]
    intro short
    exact written (List.length_eq_zero_iff.mp (Nat.succ.inj short))
  have small : n.toNat ≤ 255 := Nat.le_of_lt_succ n.toNat_lt
  rw [KeyName.spelled, if_neg long, if_pos List.head?_cons, List.tail_cons, parseUnsigned_number small, Option.map_some,
    Nat.toUInt8_eq, UInt8.ofNat_toNat]

theorem KeyName.canonical_injective : Function.Injective KeyName.canonical := by
  have back (key : KeyName) : KeyName.spelled key.canonical = some key := by
    cases key with
    | f n => exact KeyName.spelled_f n
    | char c => rfl
    | _ => decide +kernel
  intro a b same
  exact Option.some.inj ((back a).symm.trans ((congrArg _ same).trans (back b)))

theorem Chord.canonical_injective : Function.Injective Chord.canonical := by
  intro a b same
  have super (key : KeyName) := key.front "super+".toList (by decide) (by decide)
  have shift (is : Bool) (key : KeyName) := not_prefix_held "shift+".toList "super+".toList (by decide) (by decide) is
    (key.front _ (by decide) (by decide))
  have alt (is is' : Bool) (key : KeyName) := not_prefix_held "alt+".toList "shift+".toList (by decide) (by decide) is
    (not_prefix_held _ "super+".toList (by decide) (by decide) is' (key.front _ (by decide) (by decide)))
  have ctrl (is is' is'' : Bool) (key : KeyName) := not_prefix_held "ctrl+".toList "alt+".toList (by decide) (by decide) is
    (not_prefix_held _ "shift+".toList (by decide) (by decide) is' (not_prefix_held _ "super+".toList (by decide) (by decide) is''
      (key.front _ (by decide) (by decide))))
  obtain ⟨sameCtrl, same⟩ := held_inj (ctrl _ _ _ _) (ctrl _ _ _ _) same
  obtain ⟨sameAlt, same⟩ := held_inj (alt _ _ _) (alt _ _ _) same
  obtain ⟨sameShift, same⟩ := held_inj (shift _ _) (shift _ _) same
  obtain ⟨sameSuper, same⟩ := held_inj (super _) (super _) same
  cases a
  cases b
  rw [Chord.mk.injEq]
  exact ⟨sameCtrl, sameAlt, sameShift, sameSuper, KeyName.canonical_injective same⟩

end

/-! One owner for each chord. -/

def singles (entries : List KeymapEntry) : List KeymapEntry := entries.filter fun entry => !isPrefixEntryShape entry.chord

theorem parse_defaults : (∀ x ∈ DEFAULT_KEYMAPS, (Chord.parse x.1.toList).toOption.isSome = true) ∧
    (DEFAULT_KEYMAPS.map fun x => (Chord.parse x.1.toList).toOption.map ModKey.super.applyTo).Nodup := by
  decide +kernel

theorem nodup_defaults (modKey : ModKey) :
    (DEFAULT_KEYMAPS.map fun x => (Chord.parse x.1.toList).toOption.map modKey.applyTo).Nodup := by
  cases modKey with
  | super => exact parse_defaults.2
  | alt =>
    have kept : ModKey.alt.applyTo = id := funext fun chord => by
      unfold ModKey.applyTo
      split <;> rfl
    have spelled : (DEFAULT_KEYMAPS.map fun x => (Chord.parse x.1.toList).toOption).Nodup := by
      refine List.Nodup.of_map (Option.map ModKey.super.applyTo) ?_
      rw [List.map_map]
      exact parse_defaults.2
    simpa only [kept, Option.map_id, id] using spelled

theorem toOption_eq_some {ε β : Type} {x : Except ε β} {y : β} : x.toOption = some y ↔ x = .ok y := by
  cases x <;> simp [Except.toOption]

theorem readAction_shipped :
    ∀ x ∈ DEFAULT_KEYMAPS, ((readAction (trim x.2.toList)).toOption.bind Sum.getLeft?).isSome = true := by
  decide +kernel

theorem parse_shipped {ι : Type} : ∀ x ∈ DEFAULT_KEYMAPS, ∃ action, ∀ invoke : Text → Text → Except ConfigError ι,
    ChromeAction.parse invoke x.2.toList = .ok (.catalog action) := by
  intro x member
  obtain ⟨action, read⟩ := Option.isSome_iff_exists.mp (readAction_shipped x member)
  obtain ⟨read', known, left⟩ := Option.bind_eq_some_iff.mp read
  obtain rfl := Sum.getLeft?_eq_some_iff.mp left
  refine ⟨action, fun invoke => ?_⟩
  rw [ChromeAction.parse, toOption_eq_some.mp known]
  rfl

section

variable {ι β ε γ : Type} {f : ι → Except ε β} {l : List ι} {ys : List β}

abbrev Values (f : ι → Except ε β) (l : List ι) (ys : List β) : Prop := List.Forall₂ (fun x y => f x = .ok y) l ys

theorem exists_values (each : ∀ x ∈ l, ∃ y, f x = .ok y) : ∃ ys, Values f l ys := by
  induction l with
  | nil => exact ⟨[], .nil⟩
  | cons x rest ih =>
    obtain ⟨⟨y, here⟩, later⟩ := List.forall_mem_cons.mp each
    obtain ⟨ys, all⟩ := ih later
    exact ⟨y :: ys, .cons here all⟩

theorem Values.mapM (all : Values f l ys) : l.mapM f = .ok ys := by
  induction all with
  | nil => rfl
  | cons here _ ih =>
    rw [List.mapM_cons, here, ih]
    rfl

theorem Values.mem_iff (all : Values f l ys) {y : β} : y ∈ ys ↔ ∃ x ∈ l, f x = .ok y := by
  induction all with
  | nil => simp
  | cons here _ ih => simp [ih, here, eq_comm]

theorem Values.map (all : Values f l ys) {g : ι → γ} {h : β → γ} (same : ∀ x y, f x = .ok y → g x = h y) :
    l.map g = ys.map h := by
  induction all with
  | nil => rfl
  | cons here _ ih => rw [List.map_cons, List.map_cons, same _ _ here, ih]

end

variable {ι : Type} {invoke : Text → Text → Except ConfigError ι} {config : EffectiveConfig}

def Sets (invoke : Text → Text → Except ConfigError ι) (config : EffectiveConfig) (k : ResolvedKeymap ι) : Prop :=
  ∃ entry ∈ singles config.keymaps, resolveEntry invoke entry = .ok k

def Ships (invoke : Text → Text → Except ConfigError ι) (modKey : ModKey) (k : ResolvedKeymap ι) : Prop :=
  ∃ shipped ∈ DEFAULT_KEYMAPS, ∃ chord action, Chord.parse shipped.1.toList = .ok chord ∧
    ChromeAction.parse invoke shipped.2.toList = .ok action ∧ k = ⟨modKey.applyTo chord, action, GLOBAL_CONTEXT, true⟩

def Distinct (config : EffectiveConfig) : Prop :=
  (singles config.keymaps).Pairwise fun a b => Chord.parse a.chord ≠ Chord.parse b.chord

/-- A table in which every chord has one owner: the entry that names it, or else the shipped binding. -/
structure Owned (invoke : Text → Text → Except ConfigError ι) (config : EffectiveConfig) (table : List (ResolvedKeymap ι)) : Prop where
  resolved : resolveKeymaps invoke config = .ok table
  distinct : (table.map (·.chord)).Nodup
  mem_iff : ∀ k, k ∈ table ↔ Sets invoke config k ∨ Ships invoke config.modKey k ∧ ∀ own, Sets invoke config own → own.chord ≠ k.chord
  owner : ∀ key action, matchKeymap table key = some action ↔ ∃ k ∈ table, key.matchesChord k.chord ∧ k.action = action
  reordered : ∀ config', config'.modKey = config.modKey → config'.keymaps.Perm config.keymaps →
    resolveKeymaps invoke config' = .ok table

def globalId (chord : Chord) : Text := GLOBAL_CONTEXT ++ "::".toList ++ chord.canonical

theorem globalId_injective : Function.Injective globalId := fun _ _ same =>
  Chord.canonical_injective (List.append_cancel_left same)

theorem resolveEntry_ok {entry : KeymapEntry} {k : ResolvedKeymap ι} (resolved : resolveEntry invoke entry = .ok k) :
    Chord.parse entry.chord = .ok k.chord ∧ k.id = globalId k.chord := by
  unfold resolveEntry at resolved
  obtain ⟨context, checked, resolved⟩ := Checks.bind_ok_iff.mp resolved
  obtain ⟨chord, parsed, resolved⟩ := Checks.bind_ok_iff.mp resolved
  obtain ⟨action, -, resolved⟩ := Checks.bind_ok_iff.mp resolved
  obtain rfl := Except.ok.inj resolved
  refine ⟨parsed, ?_⟩
  unfold validateContext at checked
  dsimp only at checked
  split_ifs at checked
  rw [ResolvedKeymap.id, ← Except.ok.inj checked]
  rfl

/-- The loop puts all entries in the place of what they name, or refuses one that comes again. -/
theorem overlay_cases {entries : List KeymapEntry} {seen : List Text} {table own : List (ResolvedKeymap ι)}
    (values : Values (resolveEntry invoke) (singles entries) own) :
    (overlay invoke entries seen table = .ok (table.filter (fun k => k.id ∉ own.map (·.id)) ++ own) ∧
        (own.map (·.id)).Nodup ∧ ∀ k ∈ own, k.id ∉ seen) ∨
      (∃ id, overlay invoke entries seen table = .error (duplicateKeymap id)) ∧
        ¬((own.map (·.id)).Nodup ∧ ∀ k ∈ own, k.id ∉ seen) := by
  induction entries generalizing seen table own with
  | nil =>
    cases values
    exact .inl ⟨by simp [overlay], List.nodup_nil, List.forall_mem_nil _⟩
  | cons entry rest ih =>
    by_cases shape : isPrefixEntryShape entry.chord = true
    · rw [overlay, if_pos shape]
      rw [singles, List.filter_cons_of_neg (by simp [shape])] at values
      exact ih values
    · rw [singles, List.filter_cons_of_pos (by simpa using shape)] at values
      obtain _ | @⟨_, k, _, later, here, values⟩ := values
      have step : overlay invoke (entry :: rest) seen table = if k.id ∈ seen then .error (duplicateKeymap k.id)
          else overlay invoke rest (k.id :: seen) (table.filter (·.id ≠ k.id) ++ [k]) := by
        rw [overlay, if_neg shape, here]
        rfl
      rw [step]
      by_cases met : k.id ∈ seen
      · rw [if_pos met]
        exact .inr ⟨⟨k.id, rfl⟩, fun fresh => fresh.2 k List.mem_cons_self met⟩
      rw [if_neg met]
      rcases @ih (k.id :: seen) (table.filter (·.id ≠ k.id) ++ [k]) later values with ⟨ran, once, new⟩ | ⟨refused, stale⟩
      · have apart : k.id ∉ later.map (·.id) := by
          intro member
          obtain ⟨k', inLater, same⟩ := List.mem_map.mp member
          exact new k' inLater (same ▸ List.mem_cons_self)
        refine .inl ⟨ran.trans ?_, List.nodup_cons.mpr ⟨apart, once⟩, List.forall_mem_cons.mpr ⟨met, fun k' member seen => ?_⟩⟩
        · rw [List.filter_append, List.filter_filter, List.filter_cons_of_pos (by simpa using apart), List.append_assoc]
          congr 3
          funext k'
          simp [Bool.and_comm]
        · exact new k' member (List.mem_cons_of_mem _ seen)
      · refine .inr ⟨refused, fun fresh => stale ⟨(List.nodup_cons.mp fresh.1).2, fun k' member again => ?_⟩⟩
        rcases List.mem_cons.mp again with same | again
        · have inLater : k'.id ∈ later.map (·.id) := List.mem_map_of_mem member
          rw [same] at inLater
          exact (List.nodup_cons.mp fresh.1).1 inLater
        · exact fresh.2 k' (List.mem_cons_of_mem _ member) again

theorem nodup_ids {l : List (ResolvedKeymap ι)} (global : ∀ k ∈ l, k.id = globalId k.chord) :
    (l.map (·.id)).Nodup ↔ (l.map (·.chord)).Nodup := by
  rw [List.map_congr_left global, ← List.nodup_map_iff globalId_injective, List.map_map]
  rfl

theorem distinct_iff {own : List (ResolvedKeymap ι)} (values : Values (resolveEntry invoke) (singles config.keymaps) own) :
    Distinct config ↔ (own.map (·.id)).Nodup := by
  have global : ∀ k ∈ own, k.id = globalId k.chord := fun k member => by
    obtain ⟨_, _, resolved⟩ := values.mem_iff.mp member
    exact (resolveEntry_ok resolved).2
  have chords := @Values.map _ _ _ _ _ _ _ values (fun entry => Chord.parse entry.chord)
    (fun k => @Except.ok ConfigError Chord k.chord) fun _ _ resolved => (resolveEntry_ok resolved).1
  rw [nodup_ids global, ← List.nodup_map_iff (f := @Except.ok ConfigError Chord) fun _ _ => Except.ok.inj, List.map_map]
  change _ ↔ (own.map fun k => Except.ok k.chord).Nodup
  rw [← chords]
  exact List.pairwise_map.symm

theorem defaultKeymap_ok {modKey : ModKey} {shipped : String × String} {k : ResolvedKeymap ι} :
    defaultKeymap invoke modKey shipped = .ok k ↔ ∃ chord action, Chord.parse shipped.1.toList = .ok chord ∧
      ChromeAction.parse invoke shipped.2.toList = .ok action ∧ k = ⟨modKey.applyTo chord, action, GLOBAL_CONTEXT, true⟩ := by
  unfold defaultKeymap internalDefault
  cases Chord.parse shipped.1.toList with
  | error e =>
    constructor
    · rintro ⟨⟩
    · rintro ⟨_, _, ⟨⟩, _⟩
  | ok chord =>
    cases ChromeAction.parse invoke shipped.2.toList with
    | error e =>
      constructor
      · rintro ⟨⟩
      · rintro ⟨_, _, _, ⟨⟩, _⟩
    | ok action =>
      constructor
      · rintro ⟨⟩
        exact ⟨chord, action, rfl, rfl, rfl⟩
      · rintro ⟨_, _, ⟨⟩, ⟨⟩, rfl⟩
        rfl

theorem defaults_values (invoke : Text → Text → Except ConfigError ι) (modKey : ModKey) :
    ∃ table, Values (defaultKeymap invoke modKey) DEFAULT_KEYMAPS table ∧ (table.map (·.chord)).Nodup := by
  obtain ⟨table, values⟩ := @exists_values _ _ _ (defaultKeymap invoke modKey) DEFAULT_KEYMAPS fun x member => by
    obtain ⟨action, read⟩ := parse_shipped x member
    obtain ⟨chord, parsed⟩ := Option.isSome_iff_exists.mp (parse_defaults.1 x member)
    exact ⟨_, defaultKeymap_ok.mpr ⟨chord, .catalog action, toOption_eq_some.mp parsed, read invoke, rfl⟩⟩
  have chords := @Values.map _ _ _ _ _ _ _ values (fun x => (Chord.parse x.1.toList).toOption.map modKey.applyTo)
    (fun k => some k.chord) fun x k resolved => by
      obtain ⟨chord, action, parsed, -, rfl⟩ := defaultKeymap_ok.mp resolved
      rw [parsed]
      rfl
  have once := nodup_defaults modKey
  rw [chords] at once
  refine ⟨table, values, List.Nodup.of_map some ?_⟩
  rw [List.map_map]
  exact once

def overlaid (table own : List (ResolvedKeymap ι)) : List (ResolvedKeymap ι) :=
  table.filter (fun k => k.id ∉ own.map (·.id)) ++ own

theorem KeyRef.matchesChord_iff {key : KeyRef} {chord : Chord} :
    key.matchesChord chord = true ↔ chord = ⟨key.ctrl, key.alt, key.shift, key.superHeld, key.key⟩ := by
  cases chord
  cases key
  simp only [KeyRef.matchesChord, Bool.and_eq_true, decide_eq_true_eq, Chord.mk.injEq]
  constructor
  · rintro ⟨⟨⟨⟨rfl, rfl⟩, rfl⟩, rfl⟩, rfl⟩
    exact ⟨rfl, rfl, rfl, rfl, rfl⟩
  · rintro ⟨rfl, rfl, rfl, rfl, rfl⟩
    exact ⟨⟨⟨⟨rfl, rfl⟩, rfl⟩, rfl⟩, rfl⟩

theorem matchKeymap_iff {table : List (ResolvedKeymap ι)} (distinct : (table.map (·.chord)).Nodup) {key : KeyRef} {action : ChromeAction ι} :
    matchKeymap table key = some action ↔ ∃ k ∈ table, key.matchesChord k.chord ∧ k.action = action := by
  unfold matchKeymap
  rw [Option.map_eq_some_iff]
  constructor
  · rintro ⟨k, found, rfl⟩
    have meets := List.find?_some found
    exact ⟨k, List.mem_of_find?_eq_some found, meets, rfl⟩
  · rintro ⟨k, member, meets, rfl⟩
    cases found : table.find? fun m => key.matchesChord m.chord with
    | none => exact absurd meets (by simpa using List.find?_eq_none.mp found k member)
    | some other =>
      have other_meets := List.find?_some found
      have same := KeyRef.matchesChord_iff.mp other_meets
      rw [← KeyRef.matchesChord_iff.mp meets] at same
      obtain rfl := List.inj_on_of_nodup_map distinct (List.mem_of_find?_eq_some found) member same
      exact ⟨other, rfl, rfl⟩

theorem resolveKeymaps_eq {table : List (ResolvedKeymap ι)} (values : Values (defaultKeymap invoke config.modKey) DEFAULT_KEYMAPS table) :
    resolveKeymaps invoke config = (overlay invoke config.keymaps [] table).map (sortBy ResolvedKeymap.id) := by
  unfold resolveKeymaps defaultKeymapsWithMod
  rw [values.mapM]
  change (overlay invoke config.keymaps [] table >>= _) = _
  cases overlay invoke config.keymaps [] table <;> rfl

section

variable {table own : List (ResolvedKeymap ι)}

theorem resolveKeymaps_ok (values : Values (defaultKeymap invoke config.modKey) DEFAULT_KEYMAPS table)
    (sets : Values (resolveEntry invoke) (singles config.keymaps) own) (apart : (own.map (·.id)).Nodup) :
    resolveKeymaps invoke config = .ok (sortBy ResolvedKeymap.id (overlaid table own)) := by
  rw [resolveKeymaps_eq values]
  rcases @overlay_cases _ invoke config.keymaps [] table own sets with ⟨ran, -⟩ | ⟨-, stale⟩
  · rw [ran]
    rfl
  · exact absurd ⟨apart, fun _ _ => List.not_mem_nil⟩ stale

theorem nodup_overlaid (once : (table.map (·.id)).Nodup) (apart : (own.map (·.id)).Nodup) :
    ((overlaid table own).map (·.id)).Nodup := by
  rw [overlaid, List.map_append, List.nodup_append]
  refine ⟨once.sublist (List.filter_sublist.map _), apart, fun id inTable id' inOwn same => ?_⟩
  obtain ⟨k, member, rfl⟩ := List.mem_map.mp inTable
  have other := (List.mem_filter.mp member).2
  rw [decide_eq_true_eq] at other
  exact other (same ▸ inOwn)

theorem mem_overlaid {k : ResolvedKeymap ι} : k ∈ overlaid table own ↔ k ∈ own ∨ k ∈ table ∧ ∀ o ∈ own, o.id ≠ k.id := by
  rw [overlaid, List.mem_append, List.mem_filter, decide_eq_true_eq, or_comm]
  simp [eq_comm]

theorem owned_overlaid (values : Values (defaultKeymap invoke config.modKey) DEFAULT_KEYMAPS table)
    (once : (table.map (·.chord)).Nodup) (sets : Values (resolveEntry invoke) (singles config.keymaps) own)
    (apart : (own.map (·.id)).Nodup) (parsed : ∀ entry ∈ singles config.keymaps, ∃ k, resolveEntry invoke entry = .ok k) :
    Owned invoke config (sortBy ResolvedKeymap.id (overlaid table own)) := by
  have global : ∀ k ∈ table, k.id = globalId k.chord := fun k member => by
    obtain ⟨x, _, resolved⟩ := values.mem_iff.mp member
    obtain ⟨chord, action, -, -, rfl⟩ := defaultKeymap_ok.mp resolved
    rfl
  have globalOwn : ∀ k ∈ own, k.id = globalId k.chord := fun k member => by
    obtain ⟨_, _, resolved⟩ := sets.mem_iff.mp member
    exact (resolveEntry_ok resolved).2
  have globalAll : ∀ k ∈ overlaid table own, k.id = globalId k.chord := fun k member =>
    (mem_overlaid.mp member).elim (globalOwn k) fun shipped => global k shipped.1
  have ids := nodup_overlaid ((nodup_ids global).mpr once) apart
  have perm := sortBy_perm ResolvedKeymap.id (overlaid table own)
  have distinct := (perm.map (·.chord)).nodup_iff.mpr ((nodup_ids globalAll).mp ids)
  refine ⟨resolveKeymaps_ok values sets apart, distinct, fun k => ?_, fun _ _ => matchKeymap_iff distinct,
    fun config' same reordered => ?_⟩
  · have ships : k ∈ table ↔ Ships invoke config.modKey k :=
      values.mem_iff.trans (exists_congr fun x => and_congr_right fun _ => defaultKeymap_ok)
    rw [perm.mem_iff, mem_overlaid]
    refine or_congr sets.mem_iff ?_
    rw [← ships]
    refine and_congr_right fun member => forall_congr' fun o => ?_
    rw [sets.mem_iff]
    refine forall_congr' fun set => not_congr ?_
    rw [global k member, globalOwn o (sets.mem_iff.mpr set)]
    exact globalId_injective.eq_iff
  · have singlePerm : (singles config'.keymaps).Perm (singles config.keymaps) := reordered.filter _
    obtain ⟨own', sets'⟩ := exists_values fun entry member => parsed entry (singlePerm.mem_iff.mp member)
    have distinct' : Distinct config' :=
      (singlePerm.pairwise_iff fun different => different.symm).mpr ((distinct_iff sets).mpr apart)
    have apart' := (distinct_iff sets').mp distinct'
    have ownPerm : own'.Perm own := by
      refine (List.perm_ext_iff_of_nodup apart'.of_map apart.of_map).mpr fun k => ?_
      rw [sets'.mem_iff, sets.mem_iff]
      exact exists_congr fun entry => and_congr_left fun _ => singlePerm.mem_iff
    rw [← same] at values
    rw [resolveKeymaps_ok values sets' apart']
    refine congrArg Except.ok ((sortBy_eq_iff ?_).mpr ?_)
    · exact nodup_overlaid ((nodup_ids global).mpr once) apart'
    · have keys : (fun k : ResolvedKeymap ι => decide (k.id ∉ own'.map (·.id))) = fun k => decide (k.id ∉ own.map (·.id)) := by
        funext k
        exact decide_eq_decide.mpr (not_congr (ownPerm.map (·.id)).mem_iff)
      rw [overlaid, overlaid, keys]
      exact ownPerm.append_left _

end

theorem resolveKeymaps_owns (parsed : ∀ entry ∈ singles config.keymaps, ∃ k, resolveEntry invoke entry = .ok k) :
    (Distinct config → ∃ table, Owned invoke config table) ∧
      ((∃ id, resolveKeymaps invoke config = .error (duplicateKeymap id)) ↔ ¬Distinct config) := by
  obtain ⟨table, values, once⟩ := defaults_values invoke config.modKey
  obtain ⟨own, sets⟩ := exists_values parsed
  refine ⟨fun distinct => ⟨_, owned_overlaid values once sets ((distinct_iff sets).mp distinct) parsed⟩, ?_, fun twice => ?_⟩
  · rintro ⟨id, refused⟩ distinct
    rw [resolveKeymaps_ok values sets ((distinct_iff sets).mp distinct)] at refused
    cases refused
  · rw [resolveKeymaps_eq values]
    rcases @overlay_cases _ invoke config.keymaps [] table own sets with ⟨-, apart, -⟩ | ⟨⟨id, refused⟩, -⟩
    · exact absurd ((distinct_iff sets).mpr apart) twice
    · exact ⟨id, by rw [refused]; rfl⟩

/-- A shipped chord in another spelling, a binding behind the leader, and a command on a chord that nothing had. -/
def threeEntries : EffectiveConfig :=
  ⟨.super, [⟨"Cmd + H".toList, "new_panel".toList, "global".toList⟩, ⟨"leader w".toList, "close_view".toList, "global".toList⟩,
    ⟨"f5".toList, "command:bitty.tools:Plugins".toList, "Global".toList⟩]⟩

def readCommand (tail _ : Text) : Except ConfigError Text := .ok (lower tail)

theorem resolveKeymaps_owns_three : Distinct threeEntries ∧ ∃ table, Owned readCommand threeEntries table := by
  have distinct : Distinct threeEntries := by
    unfold Distinct
    decide +kernel
  have parsed : ∀ entry ∈ singles threeEntries.keymaps, ∃ k, resolveEntry readCommand entry = .ok k := by
    have all : ∀ entry ∈ singles threeEntries.keymaps, (resolveEntry readCommand entry).toOption.isSome = true := by decide +kernel
    intro entry member
    obtain ⟨k, read⟩ := Option.isSome_iff_exists.mp (all entry member)
    exact ⟨k, toOption_eq_some.mp read⟩
  exact ⟨distinct, (resolveKeymaps_owns parsed).1 distinct⟩

end Bitty.Config
