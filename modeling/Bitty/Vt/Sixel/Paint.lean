import Bitty.Library.Blocks
import Bitty.Vt.Sixel.Strips

/-! The painter's semantics of a payload, and the buffer that the second walk fills. -/

namespace Bitty.Vt.Sixel

namespace Cell

variable (cell : Cell)

def Covers (x y : Nat) : Prop :=
  (cell.x ≤ x ∧ x < cell.x + cell.repeats) ∧ cell.y ≤ y ∧ y < cell.y + 6 ∧ cell.bits.testBit (y - cell.y) = true

instance (x y : Nat) : Decidable (cell.Covers x y) := inferInstanceAs (Decidable (_ ∧ _))

def pixels (width : Nat) : List Nat :=
  (List.range 6).flatMap fun bit =>
    if cell.bits.testBit bit then (List.range cell.repeats).map fun step => (cell.y + bit) * width + (cell.x + step) else []

variable {cell} {width x y : Nat}

theorem mem_pixels (reach : cell.x + cell.repeats ≤ width) (inside : x < width) :
    y * width + x ∈ cell.pixels width ↔ cell.Covers x y := by
  unfold pixels
  rw [List.mem_flatMap]
  constructor
  · rintro ⟨bit, six, member⟩
    split at member
    next set_ =>
      obtain ⟨step, less, same⟩ := List.mem_map.mp member
      rw [List.mem_range] at six less
      obtain ⟨row, col⟩ := (Blocks.rowMajor_inj (by omega) inside).mp same
      refine ⟨by omega, by omega, by omega, ?_⟩
      rwa [← row, Nat.add_sub_cancel_left]
    next => cases member
  · rintro ⟨columns, low, high, set_⟩
    refine ⟨y - cell.y, List.mem_range.mpr (by omega), ?_⟩
    rw [if_pos set_]
    refine List.mem_map.mpr ⟨x - cell.x, List.mem_range.mpr (by omega), ?_⟩
    rw [Nat.add_sub_cancel' low, Nat.add_sub_cancel' columns.1]

theorem Covers.row (covers : cell.Covers x y) : cell.bits ≠ 0 ∧ y ≤ cell.y + Nat.log2 cell.bits := by
  have power := Nat.ge_two_pow_of_testBit covers.2.2.2
  have visible : cell.bits ≠ 0 := by
    have positive := Nat.two_pow_pos (y - cell.y)
    omega
  have bit := (Nat.le_log2 visible).mpr power
  exact ⟨visible, by omega⟩

end Cell

def plane (strips : List Strip) (x y : Nat) : Option Color3 := (strips.reverse.find? fun strip => strip.2.Covers x y).map (·.1)

def pixelBytes : Option Color3 → List UInt8
  | none => [0, 0, 0, 0]
  | some (red, green, blue) => [red, green, blue, 255]

def pixelAt (image : SixelImage) (x y : Nat) : List UInt8 := Blocks.block 4 image.rgba (y * image.width + x)

def drawStrip (width : Nat) (rgba : List UInt8) (strip : Strip) : List UInt8 :=
  (strip.2.pixels width).foldl (fun rgba pixel => Blocks.write 4 rgba pixel (pixelBytes (some strip.1))) rgba

theorem draw_eq (width : Nat) (rgba : List UInt8) (palette : Palette) (cell : Cell) :
    draw width rgba palette cell = drawStrip width rgba (palette.lookup cell.color, cell) := by
  unfold draw drawStrip Cell.pixels
  rw [List.foldl_flatMap]
  dsimp only
  congr 1
  funext rgba bit
  split
  · rw [List.foldl_map]
    rfl
  · rfl

theorem plane_append (strips : List Strip) (strip : Strip) (x y : Nat) :
    plane (strips ++ [strip]) x y = if strip.2.Covers x y then some strip.1 else plane strips x y := by
  unfold plane
  rw [List.reverse_append, List.reverse_singleton, List.singleton_append, List.find?_cons]
  split
  next covers => rw [if_pos (of_decide_eq_true covers)]; rfl
  next away => rw [if_neg (of_decide_eq_false away)]

structure Shows (width height : Nat) (rgba : List UInt8) (strips : List Strip) : Prop where
  length : rgba.length = width * height * 4
  pixel : ∀ x < width, ∀ y < height, Blocks.block 4 rgba (y * width + x) = pixelBytes (plane strips x y)

theorem Shows.blank (width height : Nat) : Shows width height (List.replicate (width * height * 4) 0) [] :=
  ⟨List.length_replicate, fun _ column _ row => Blocks.block_replicate 0 _ (Blocks.rowMajor_lt column row)⟩

variable {width height : Nat} {rgba : List UInt8} {done rest : List Strip} {strip : Strip}

theorem Shows.drawStrip (shows : Shows width height rgba done) (columns : strip.2.x + strip.2.repeats ≤ width)
    (rows : ∀ x y, strip.2.Covers x y → y < height) :
    Shows width height (Sixel.drawStrip width rgba strip) (done ++ [strip]) := by
  have inside : ∀ pixel ∈ strip.2.pixels width, pixel * 4 + 4 ≤ rgba.length := by
    intro pixel member
    obtain ⟨bit, six, member'⟩ := List.mem_flatMap.mp member
    split at member'
    next set_ =>
      obtain ⟨step, less, rfl⟩ := List.mem_map.mp member'
      rw [List.mem_range] at less
      have covers : strip.2.Covers (strip.2.x + step) (strip.2.y + bit) := (Cell.mem_pixels columns (by omega)).mp member
      have place : (strip.2.y + bit) * width + (strip.2.x + step) < width * height :=
        Blocks.rowMajor_lt (by omega) (rows _ _ covers)
      rw [shows.length]
      omega
    next => cases member'
  have size : (pixelBytes (some strip.1)).length = 4 := rfl
  have painted := Blocks.block_foldl_write size inside
  refine ⟨(painted 0).1.trans shows.length, fun x column y row => ?_⟩
  rw [plane_append]
  refine (painted (y * width + x)).2.trans ?_
  by_cases covers : strip.2.Covers x y
  · rw [if_pos covers, if_pos ((Cell.mem_pixels columns column).mpr covers)]
  · rw [if_neg covers, if_neg (mt (Cell.mem_pixels columns column).mp covers), shows.pixel x column y row]

theorem Shows.foldl (shows : Shows width height rgba done) (columns : ∀ strip ∈ rest, strip.2.x + strip.2.repeats ≤ width)
    (rows : ∀ strip ∈ rest, ∀ x y, strip.2.Covers x y → y < height) :
    Shows width height (rest.foldl (Sixel.drawStrip width) rgba) (done ++ rest) := by
  induction rest generalizing rgba done with
  | nil =>
    rw [List.append_nil]
    exact shows
  | cons strip rest ih =>
    have next := shows.drawStrip (columns strip List.mem_cons_self) (rows strip List.mem_cons_self)
    have later := ih next (fun strip member => columns strip (List.mem_cons_of_mem _ member)) fun strip member =>
      rows strip (List.mem_cons_of_mem _ member)
    rwa [List.append_assoc, List.singleton_append] at later

variable {hlsToRgb : Nat → Nat → Nat → Color3} {payload : List UInt8} {params : SixelParams} {extent : Extent}

theorem Measured.contained {strips : List Strip} (measured : Measured strips extent) {strip : Strip} (member : strip ∈ strips)
    {x y : Nat} (covers : strip.2.Covers x y) : x < extent.width ∧ y < extent.height := by
  have columns := measured.columns strip member
  obtain ⟨visible, low⟩ := covers.row
  have rows := measured.rows strip member visible
  have inside := covers.1
  omega

theorem render_ok (first : measure hlsToRgb payload = .ok extent) : Measured (strips hlsToRgb payload) extent ∧
    (extent.width ≠ 0 ∧ extent.height ≠ 0 ∧ extent.width * extent.height * 4 ≤ SIXEL_MAX_BYTES) ∧
    ∃ rgba, render hlsToRgb payload params extent = .ok (⟨extent.width, extent.height, params.transparent, rgba⟩, extent) ∧
      Shows extent.width extent.height rgba (strips hlsToRgb payload) := by
  unfold measure at first
  simp only [bind, Except.bind, pure, Except.pure] at first
  split at first
  · cases first
  split at first
  · cases first
  cases run : walk hlsToRgb (fun _ _ _ => ()) payload () with
  | error reject =>
    rw [run] at first
    cases first
  | ok measured =>
    rw [run] at first
    dsimp only at first
    split at first
    · cases first
    next drawn =>
      split at first
      · cases first
      split at first
      · cases first
      next small =>
        obtain rfl : measured.extent = extent := Except.ok.inj first
        obtain ⟨bounds, painted, second, same, sink⟩ := walk_ok run (drawStrip measured.extent.width) (draw_eq measured.extent.width)
          (List.replicate (measured.extent.width * measured.extent.height * 4) 0)
        refine ⟨bounds, ⟨by omega, by omega, by omega⟩, painted.sink, ?_, ?_⟩
        · unfold render
          dsimp only
          rw [second, ← same]
          rfl
        · rw [sink]
          have shows := (Shows.blank measured.extent.width measured.extent.height).foldl bounds.columns
            fun strip member x y covers => (bounds.contained member covers).2
          rwa [List.nil_append] at shows

/-- An image is as wide as its data bytes reach, holds every pixel that they set, and shows each pixel in the color of
the last data byte that sets it. -/
structure Faithful (strips : List Strip) (image : SixelImage) : Prop where
  columns : ∀ strip ∈ strips, strip.2.x + strip.2.repeats ≤ image.width
  widest : ∃ strip ∈ strips, strip.2.x + strip.2.repeats = image.width
  contained : ∀ strip ∈ strips, ∀ x y, strip.2.Covers x y → x < image.width ∧ y < image.height
  length : image.rgba.length = image.width * image.height * 4
  bounded : image.rgba.length ≤ SIXEL_MAX_BYTES
  pixel : ∀ x < image.width, ∀ y < image.height, pixelAt image x y = pixelBytes (plane strips x y)

def DrawnRows (strips : List Strip) (height : Nat) : Prop :=
  (∀ strip ∈ strips, ∀ x y, strip.2.Covers x y → y < height) ∧ ∃ strip ∈ strips, ∃ x y, strip.2.Covers x y ∧ y + 1 = height

/-- Of the data bytes whose bits reach lowest, one is repeated at least once. -/
def LowestIsDrawn (strips : List Strip) : Prop := ∃ strip ∈ strips, 0 < strip.2.repeats ∧ strip.2.bits ≠ 0 ∧
  ∀ other ∈ strips, other.2.bits ≠ 0 → other.2.y + Nat.log2 other.2.bits ≤ strip.2.y + Nat.log2 strip.2.bits

theorem Measured.drawnRows_iff {strips : List Strip} (measured : Measured strips extent) (drawn : extent.height ≠ 0) :
    DrawnRows strips extent.height ↔ LowestIsDrawn strips := by
  constructor
  · rintro ⟨_, strip, member, x, y, covers, bottom⟩
    obtain ⟨visible, low⟩ := covers.row
    have inside := covers.1
    refine ⟨strip, member, by omega, visible, fun other member' visible' => ?_⟩
    have rows := measured.rows other member' visible'
    omega
  · rintro ⟨strip, member, repeated, visible, lowest⟩
    refine ⟨fun strip member x y covers => (measured.contained member covers).2, strip, member, strip.2.x,
      strip.2.y + Nat.log2 strip.2.bits, ⟨by omega, by omega, ?_, ?_⟩, ?_⟩
    · have small := log2_lt_six (measured.small strip member)
      omega
    · rw [Nat.add_sub_cancel_left]
      exact Nat.testBit_log2 visible
    · have rows := measured.rows strip member visible
      rcases measured.lowest with zero | ⟨other, member', visible', same⟩
      · exact absurd zero drawn
      · have most := lowest other member' visible'
        omega

end Bitty.Vt.Sixel
