import Mathlib

/-! Flat buffers of blocks of one size, and grids of such blocks in row-major order. -/

namespace Blocks

variable {α : Type*} (k : Nat)

def block (buf : List α) (i : Nat) : List α := (buf.drop (i * k)).take k

def write (buf : List α) (i : Nat) (entry : List α) : List α :=
  if i * k + k ≤ buf.length then buf.take (i * k) ++ entry ++ buf.drop (i * k + k) else buf

variable {k} {buf entry : List α} {i j : Nat}

theorem length_write (size : entry.length = k) : (write k buf i entry).length = buf.length := by
  unfold write
  split
  next inside =>
    simp only [List.length_append, List.length_take, List.length_drop, size]
    omega
  next => rfl

theorem getElem?_block (t : Nat) : (block k buf i)[t]? = if t < k then buf[i * k + t]? else none := by
  unfold block
  rw [List.getElem?_take]
  split
  · rw [List.getElem?_drop]
  · rfl

theorem getElem?_write (size : entry.length = k) (inside : i * k + k ≤ buf.length) (n : Nat) :
    (write k buf i entry)[n]? = if i * k ≤ n ∧ n < i * k + k then entry[n - i * k]? else buf[n]? := by
  unfold write
  have front : (buf.take (i * k)).length = i * k := by
    rw [List.length_take]
    omega
  rw [if_pos inside, List.append_assoc, List.getElem?_append, front]
  by_cases before : n < i * k
  · rw [if_pos before, if_neg (by omega), List.getElem?_take, if_pos before]
  · rw [if_neg before, List.getElem?_append, size]
    by_cases within : n - i * k < k
    · rw [if_pos within, if_pos (by omega)]
    · rw [if_neg within, if_neg (by omega), List.getElem?_drop, show i * k + k + (n - i * k - k) = n by omega]

theorem block_write (size : entry.length = k) (inside : i * k + k ≤ buf.length) (j : Nat) :
    block k (write k buf i entry) j = if i = j then entry else block k buf j := by
  by_cases same : i = j
  · subst same
    rw [if_pos rfl]
    refine List.ext_getElem? fun t => ?_
    rw [getElem?_block]
    split
    next => rw [getElem?_write size inside, if_pos (by omega), Nat.add_sub_cancel_left]
    next past => rw [List.getElem?_eq_none (by omega)]
  · rw [if_neg same]
    refine List.ext_getElem? fun t => ?_
    rw [getElem?_block, getElem?_block]
    split
    next within =>
      rw [getElem?_write size inside, if_neg]
      rintro ⟨low, high⟩
      rcases Nat.lt_or_gt_of_ne same with less | more
      · have step := Nat.mul_le_mul_right k less
        rw [Nat.succ_mul] at step
        omega
      · have step := Nat.mul_le_mul_right k more
        rw [Nat.succ_mul] at step
        omega
    next => rfl

theorem block_foldl_write (size : entry.length = k) {targets : List Nat} (inside : ∀ i ∈ targets, i * k + k ≤ buf.length) (j : Nat) :
    (targets.foldl (fun buf i => write k buf i entry) buf).length = buf.length ∧
      block k (targets.foldl (fun buf i => write k buf i entry) buf) j = if j ∈ targets then entry else block k buf j := by
  induction targets generalizing buf with
  | nil => exact ⟨rfl, rfl⟩
  | cons i rest ih =>
    have first := inside i List.mem_cons_self
    have remaining : ∀ n ∈ rest, n * k + k ≤ (write k buf i entry).length := by
      intro n member
      rw [length_write size]
      exact inside n (List.mem_cons_of_mem _ member)
    obtain ⟨length, blocks⟩ := ih remaining
    refine ⟨length.trans (length_write size), ?_⟩
    rw [List.foldl_cons, blocks, block_write size first]
    by_cases later : j ∈ rest
    · rw [if_pos later, if_pos (List.mem_cons_of_mem _ later)]
    · rw [if_neg later]
      by_cases here : i = j
      · rw [if_pos here, if_pos (here ▸ List.mem_cons_self)]
      · rw [if_neg here, if_neg fun member => (List.mem_cons.mp member).elim (here ∘ Eq.symm) later]

theorem block_replicate (a : α) (n : Nat) (inside : i < n) : block k (List.replicate (n * k) a) i = List.replicate k a := by
  have room := Nat.mul_le_mul_right k inside
  rw [Nat.succ_mul] at room
  unfold block
  rw [List.drop_replicate, List.take_replicate, Nat.min_eq_left (by omega)]

theorem rowMajor_inj {width row col row' col' : Nat} (inside : col < width) (inside' : col' < width) :
    row * width + col = row' * width + col' ↔ row = row' ∧ col = col' := by
  constructor
  · intro same
    rcases Nat.lt_trichotomy row row' with less | rfl | more
    · have step := Nat.mul_le_mul_right width less
      rw [Nat.succ_mul] at step
      omega
    · exact ⟨rfl, by omega⟩
    · have step := Nat.mul_le_mul_right width more
      rw [Nat.succ_mul] at step
      omega
  · rintro ⟨rfl, rfl⟩
    rfl

theorem rowMajor_lt {width height row col : Nat} (inside : col < width) (below : row < height) :
    row * width + col < width * height := by
  have step := Nat.mul_le_mul_right width below
  rw [Nat.succ_mul, Nat.mul_comm height] at step
  omega

end Blocks
