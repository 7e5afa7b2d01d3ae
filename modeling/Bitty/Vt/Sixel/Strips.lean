import Bitty.Vt.Sixel.Decode

/-! What a walk hands to its sink: the strips of the payload, which do not depend on the sink, and their extent. -/

namespace Bitty.Vt.Sixel

abbrev Strip := Color3 × Cell

def collect (strips : List Strip) (palette : Palette) (cell : Cell) : List Strip := strips ++ [(palette.lookup cell.color, cell)]

namespace Walk

variable {σ τ : Type}

def map (φ : σ → τ) (w : Walk σ) : Walk τ :=
  { x := w.x, y := w.y, color := w.color, repeats := w.repeats, palette := w.palette, extent := w.extent, sink := φ w.sink }

end Walk

variable {hlsToRgb : Nat → Nat → Nat → Color3} {σ τ : Type} {sink : σ → Palette → Cell → σ} {sink' : τ → Palette → Cell → τ}
  {φ : σ → τ}

theorem selectColor_map (w : Walk σ) (position : Position) : selectColor hlsToRgb (w.map φ) position =
    (selectColor hlsToRgb w position).map fun (w, next) => (w.map φ, next) := by
  unfold selectColor
  cases parseNumber position with
  | error reject => rfl
  | ok parsed =>
    obtain ⟨register, next⟩ := parsed
    simp only [bind, Except.bind, pure, Except.pure]
    split
    · rfl
    · split
      · cases definition 4 [] next with
        | error reject => rfl
        | ok defined =>
          dsimp only
          split
          · rfl
          · rfl
      · rfl

theorem rasterAttributes_map (w : Walk σ) (position : Position) : rasterAttributes (w.map φ) position =
    (rasterAttributes w position).map fun (w, next) => (w.map φ, next) := by
  unfold rasterAttributes
  cases attributes 4 [] position with
  | error reject => rfl
  | ok parsed =>
    simp only [bind, Except.bind, pure, Except.pure]
    split
    · rfl
    · split
      · rfl
      · rfl

section Map

variable (hom : ∀ s palette cell, φ (sink s palette cell) = sink' (φ s) palette cell)

include hom

theorem sixelData_map (bits : Nat) (w : Walk σ) : sixelData sink' bits (w.map φ) = (sixelData sink bits w).map (Walk.map φ) := by
  unfold sixelData
  dsimp only [Walk.map]
  split
  · rfl
  · simp only [Except.map, Walk.map, hom]

theorem walkByte_map (byte : UInt8) (index : Nat) (rest : List UInt8) (w : Walk σ) :
    walkByte hlsToRgb sink' byte index rest (w.map φ) =
      (walkByte hlsToRgb sink byte index rest w).map fun (w, next) => (w.map φ, next) := by
  unfold walkByte
  dsimp only
  split
  · exact selectColor_map w _
  · exact rasterAttributes_map w _
  · cases parseNumber (index + 1, rest) with
    | error reject => rfl
    | ok parsed => rfl
  · rfl
  · unfold graphicsNewline
    dsimp only [Walk.map]
    split
    · rfl
    · rfl
  · rfl
  · rfl
  · split
    · rw [sixelData_map hom]
      cases sixelData sink _ w with
      | error reject => rfl
      | ok w' => rfl
    · rfl

theorem walkLoop_map (turns : Nat) (position : Position) (w : Walk σ) : walkLoop hlsToRgb sink' turns position (w.map φ) =
    (walkLoop hlsToRgb sink turns position w).map (Walk.map φ) := by
  induction turns generalizing position w with
  | zero =>
    obtain ⟨index, rest⟩ := position
    cases rest <;> rfl
  | succ turns ih =>
    obtain ⟨index, rest⟩ := position
    cases rest with
    | nil => rfl
    | cons byte rest =>
      unfold walkLoop
      rw [walkByte_map hom]
      cases walkByte hlsToRgb sink byte index rest w with
      | error reject => rfl
      | ok stepped => exact ih stepped.2 stepped.1

theorem walk_map (payload : List UInt8) (start : σ) : walk hlsToRgb sink' payload (φ start) =
    (walk hlsToRgb sink payload start).map (Walk.map φ) := walkLoop_map hom payload.length (0, payload) { sink := start }

end Map

structure Measured (strips : List Strip) (extent : Extent) : Prop where
  cells : extent.cells = strips.length
  columns : ∀ strip ∈ strips, strip.2.x + strip.2.repeats ≤ extent.width
  widest : extent.width = 0 ∨ ∃ strip ∈ strips, strip.2.x + strip.2.repeats = extent.width
  rows : ∀ strip ∈ strips, strip.2.bits ≠ 0 → strip.2.y + Nat.log2 strip.2.bits + 1 ≤ extent.height
  lowest : extent.height = 0 ∨ ∃ strip ∈ strips, strip.2.bits ≠ 0 ∧ strip.2.y + Nat.log2 strip.2.bits + 1 = extent.height
  small : ∀ strip ∈ strips, strip.2.bits < 2 ^ 6

theorem Measured.nil : Measured [] {} := ⟨rfl, nofun, .inl rfl, nofun, .inl rfl, nofun⟩

theorem log2_lt_six {bits : Nat} (small : bits < 2 ^ 6) : Nat.log2 bits < 6 := by
  by_cases zero : bits = 0
  · rw [zero]
    decide
  · exact (Nat.log2_lt zero).mpr small

theorem Measured.sixelData {w w' : Walk (List Strip)} {bits : Nat} (measured : Measured w.sink w.extent) (small : bits < 2 ^ 6)
    (step : sixelData collect bits w = .ok w') : Measured w'.sink w'.extent := by
  have low := log2_lt_six small
  unfold Sixel.sixelData at step
  dsimp only at step
  split at step
  · cases step
  next fits =>
    have width : toU32 (w.x + w.repeats) SIXEL_MAX_WIDTH = w.x + w.repeats := by
      unfold toU32
      rw [if_pos]
      unfold SIXEL_MAX_WIDTH at fits
      unfold U32_MAX
      omega
    have height : min (w.y + (Nat.log2 bits + 1)) U32_MAX = w.y + Nat.log2 bits + 1 := by
      unfold SIXEL_MAX_HEIGHT SIXEL_BAND_ROWS at fits
      unfold U32_MAX
      omega
    cases step
    rw [width, height]
    have members {strip : Strip} (member : strip ∈ collect w.sink w.palette ⟨w.x, w.y, w.repeats, bits, w.color⟩) :
        strip ∈ w.sink ∨ strip = (w.palette.lookup w.color, ⟨w.x, w.y, w.repeats, bits, w.color⟩) :=
      (List.mem_append.mp member).imp_right List.mem_singleton.mp
    have new : (w.palette.lookup w.color, ⟨w.x, w.y, w.repeats, bits, w.color⟩) ∈
        collect w.sink w.palette ⟨w.x, w.y, w.repeats, bits, w.color⟩ := List.mem_append_right _ (List.mem_singleton.mpr rfl)
    have old {strip : Strip} (member : strip ∈ w.sink) : strip ∈ collect w.sink w.palette ⟨w.x, w.y, w.repeats, bits, w.color⟩ :=
      List.mem_append_left _ member
    refine ⟨?_, fun strip member => ?_, ?_, fun strip member visible => ?_, ?_, fun strip member => ?_⟩
    · dsimp only [collect]
      rw [List.length_append, measured.cells]
      rfl
    · dsimp only
      rcases members member with before | rfl
      · have bound := measured.columns strip before
        omega
      · dsimp only
        omega
    · dsimp only
      by_cases further : w.extent.width ≤ w.x + w.repeats
      · exact .inr ⟨_, new, (Nat.max_eq_right further).symm⟩
      · rcases measured.widest with zero | ⟨strip, member, same⟩
        · omega
        · exact .inr ⟨strip, old member, by omega⟩
    · dsimp only
      rcases members member with before | rfl
      · have bound := measured.rows strip before visible
        split <;> omega
      · rw [if_pos visible]
        dsimp only
        omega
    · dsimp only
      by_cases visible : bits ≠ 0
      · rw [if_pos visible]
        by_cases lower : w.extent.height ≤ w.y + Nat.log2 bits + 1
        · exact .inr ⟨_, new, visible, (Nat.max_eq_right lower).symm⟩
        · rcases measured.lowest with zero | ⟨strip, member, set_, same⟩
          · omega
          · exact .inr ⟨strip, old member, set_, by omega⟩
      · rw [if_neg visible]
        exact measured.lowest.imp_right fun ⟨strip, member, found⟩ => ⟨strip, old member, found⟩
    · rcases members member with before | rfl
      · exact measured.small strip before
      · exact small

theorem digits_length (value index : Nat) (rest : List UInt8) : (digits value index rest).2.2.length ≤ rest.length := by
  induction rest generalizing value index with
  | nil => exact Nat.le_refl 0
  | cons byte rest ih =>
    unfold digits
    split
    · exact Nat.le_succ_of_le (ih _ _)
    · exact Nat.le_refl _

variable {next : Position}

theorem parseNumber_length {value : Nat} {start : Position} (parsed : parseNumber start = .ok (value, next)) :
    next.2.length ≤ start.2.length := by
  have shorter := digits_length 0 start.1 start.2
  unfold parseNumber at parsed
  dsimp only at parsed
  split at parsed
  · cases parsed
  · cases parsed
    exact shorter

theorem definition_length {room : Nat} {values values' : List Nat} {start : Position}
    (defined : definition room values start = .ok (values', next)) : next.2.length ≤ start.2.length := by
  induction room, values, start using definition.induct with
  | case1 values index rest =>
    rw [definition] at defined
    cases defined
  | case2 values index rest room ih =>
    rw [definition] at defined
    cases parsed : parseNumber (index + 1, rest) with
    | error reject =>
      rw [parsed] at defined
      cases defined
    | ok parsed' =>
      rw [parsed] at defined
      exact Nat.le_succ_of_le (Nat.le_trans (ih _ _ defined) (parseNumber_length parsed))
  | case3 room values position other =>
    rw [definition] at defined
    · cases defined
      exact Nat.le_refl _
    · exact other

theorem attributes_length {room : Nat} {values values' : List Nat} {start : Position}
    (parsed : attributes room values start = .ok (values', next)) : next.2.length ≤ start.2.length := by
  induction room generalizing values start with
  | zero => cases parsed
  | succ room ih =>
    unfold attributes at parsed
    cases first : parseNumber start with
    | error reject =>
      rw [first] at parsed
      cases parsed
    | ok first' =>
      rw [first] at parsed
      have shorter := parseNumber_length first
      simp only [bind, Except.bind, pure, Except.pure] at parsed
      split at parsed
      next same =>
        rw [same] at shorter
        exact Nat.le_trans (ih parsed) (Nat.le_of_succ_le shorter)
      next =>
        cases parsed
        exact shorter

variable {position : Position}

theorem selectColor_ok {w w' : Walk σ} (step : selectColor hlsToRgb w position = .ok (w', next)) :
    (w'.extent = w.extent ∧ w'.sink = w.sink) ∧ next.2.length ≤ position.2.length := by
  unfold selectColor at step
  cases parsed : parseNumber position with
  | error reject =>
    rw [parsed] at step
    cases step
  | ok parsed' =>
    have shorter := parseNumber_length parsed
    rw [parsed] at step
    simp only [bind, Except.bind, pure, Except.pure] at step
    split at step
    · cases step
    · split at step
      · cases defined : definition 4 [] parsed'.2 with
        | error reject =>
          rw [defined] at step
          cases step
        | ok defined' =>
          rw [defined] at step
          dsimp only at step
          split at step
          · cases step
          · cases step
            exact ⟨⟨rfl, rfl⟩, Nat.le_trans (definition_length defined) shorter⟩
      · cases step
        exact ⟨⟨rfl, rfl⟩, shorter⟩

theorem rasterAttributes_ok {w w' : Walk σ} (step : rasterAttributes w position = .ok (w', next)) :
    w' = w ∧ next.2.length ≤ position.2.length := by
  unfold rasterAttributes at step
  cases parsed : attributes 4 [] position with
  | error reject =>
    rw [parsed] at step
    cases step
  | ok parsed' =>
    rw [parsed] at step
    simp only [bind, Except.bind, pure, Except.pure] at step
    split at step
    · cases step
    · split at step
      · cases step
      · cases step
        exact ⟨rfl, attributes_length parsed⟩

theorem walkByte_ok {w w' : Walk σ} {byte : UInt8} {index : Nat} {rest : List UInt8}
    (step : walkByte hlsToRgb sink byte index rest w = .ok (w', next)) :
    (w'.extent = w.extent ∧ w'.sink = w.sink) ∨ ∃ bits < 2 ^ 6, sixelData sink bits w = .ok w' := by
  unfold walkByte at step
  dsimp only at step
  split at step
  · exact .inl (selectColor_ok step).1
  · rw [(rasterAttributes_ok step).1]
    exact .inl ⟨rfl, rfl⟩
  · cases parsed : parseNumber (index + 1, rest) with
    | error reject =>
      rw [parsed] at step
      cases step
    | ok parsed' =>
      rw [parsed] at step
      cases step
      exact .inl ⟨rfl, rfl⟩
  · cases step
    exact .inl ⟨rfl, rfl⟩
  · unfold graphicsNewline at step
    dsimp only at step
    split at step
    · cases step
    · cases step
      exact .inl ⟨rfl, rfl⟩
  · cases step
    exact .inl ⟨rfl, rfl⟩
  · cases step
    exact .inl ⟨rfl, rfl⟩
  · split at step
    next range =>
      cases drawn : sixelData sink (byte.toNat - SIXEL_DATA_BASE) w with
      | error reject =>
        rw [drawn] at step
        cases step
      | ok drawn' =>
        rw [drawn] at step
        cases step
        refine .inr ⟨_, ?_, drawn⟩
        unfold SIXEL_DATA_BASE at range ⊢
        omega
    next => cases step

theorem Measured.walkLoop {turns : Nat} {w w' : Walk (List Strip)} (measured : Measured w.sink w.extent)
    (run : walkLoop hlsToRgb collect turns position w = .ok w') : Measured w'.sink w'.extent := by
  induction turns generalizing position w with
  | zero =>
    obtain ⟨index, rest⟩ := position
    cases rest with
    | nil =>
      cases run
      exact measured
    | cons byte rest =>
      cases run
      exact measured
  | succ turns ih =>
    obtain ⟨index, rest⟩ := position
    cases rest with
    | nil =>
      cases run
      exact measured
    | cons byte rest =>
      unfold Sixel.walkLoop at run
      cases step : walkByte hlsToRgb collect byte index rest w with
      | error reject =>
        rw [step] at run
        cases run
      | ok stepped =>
        rw [step] at run
        refine ih ?_ run
        rcases walkByte_ok step with ⟨extent, same⟩ | ⟨bits, small, drawn⟩
        · rw [extent, same]
          exact measured
        · exact measured.sixelData small drawn

variable (hlsToRgb) in
def strips (payload : List UInt8) : List Strip :=
  match walk hlsToRgb collect payload [] with
  | .ok w => w.sink
  | .error _ => []

theorem walk_ok {payload : List UInt8} {start : σ} {w : Walk σ} (run : walk hlsToRgb sink payload start = .ok w)
    (draws : τ → Strip → τ) (drawn : ∀ s palette cell, sink' s palette cell = draws s (palette.lookup cell.color, cell)) (start' : τ) :
    Measured (strips hlsToRgb payload) w.extent ∧ ∃ w', walk hlsToRgb sink' payload start' = .ok w' ∧ w'.extent = w.extent ∧
      w'.sink = (strips hlsToRgb payload).foldl draws start' := by
  have plain := @walk_map hlsToRgb σ Unit sink (fun _ _ _ => ()) (fun _ => ()) (fun _ _ _ => rfl) payload start
  have gathered := @walk_map hlsToRgb (List Strip) Unit collect (fun _ _ _ => ()) (fun _ => ()) (fun _ _ _ => rfl) payload []
  have hom (strips : List Strip) (palette : Palette) (cell : Cell) :
      (collect strips palette cell).foldl draws start' = sink' (strips.foldl draws start') palette cell := by
    rw [collect, List.foldl_append, drawn]
    rfl
  have painted := @walk_map hlsToRgb (List Strip) τ collect sink' (fun strips => strips.foldl draws start') hom payload []
  rw [run] at plain
  rw [plain] at gathered
  cases collected : walk hlsToRgb collect payload [] with
  | error reject =>
    rw [collected] at gathered
    cases gathered
  | ok all =>
    rw [collected] at gathered painted
    have same : w.extent = all.extent := by
      have extents := Except.ok.inj gathered
      exact congrArg (fun walk : Walk Unit => walk.extent) extents
    have named : strips hlsToRgb payload = all.sink := by
      unfold strips
      rw [collected]
    have measured : Measured all.sink all.extent := Measured.walkLoop Measured.nil collected
    rw [named, same]
    exact ⟨measured, _, painted, rfl, rfl⟩

end Bitty.Vt.Sixel
