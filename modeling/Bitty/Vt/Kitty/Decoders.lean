import Bitty.Library.Base64
import Bitty.Library.Mutation
import Bitty.Vt.Kitty.Base64

namespace Bitty.Vt

variable {n : Nat}

theorem sextet_lt {byte : UInt8} (value : sextet byte = some n) : n < 64 := by
  unfold sextet at value
  split_ifs at value with upper lower digit <;> cases value
  · have := UInt8.le_iff_toNat_le.mp upper.2
    simp at this
    omega
  · have := UInt8.le_iff_toNat_le.mp lower.2
    simp at this
    omega
  · have := UInt8.le_iff_toNat_le.mp digit.2
    simp at this
    omega
  · decide
  · decide

def standard : Base64 UInt8 where
  value := sextet
  pad := 0x3D
  value_lt := sextet_lt
  value_pad := by decide

theorem ne_pad {byte : UInt8} (value : sextet byte = some n) : byte ≠ 0x3D := by
  rintro rfl
  exact absurd (value.symm.trans standard.value_pad) nofun

theorem triple_eq {a b c d : Nat} (hb : b < 64) (hc : c < 64) (hd : d < 64) :
    (a <<< 18) ||| (b <<< 12) ||| (c <<< 6) ||| d = a * 262144 + b * 4096 + c * 64 + d := by
  have last : c <<< 6 + d = c <<< 6 ||| d := Nat.shiftLeft_add_eq_or_of_lt (by omega) c
  have more : b <<< 12 + (c <<< 6 ||| d) = b <<< 12 ||| (c <<< 6 ||| d) :=
    Nat.shiftLeft_add_eq_or_of_lt (by rw [← last, Nat.shiftLeft_eq]; omega) b
  have whole : a <<< 18 + (b <<< 12 ||| (c <<< 6 ||| d)) = a <<< 18 ||| (b <<< 12 ||| (c <<< 6 ||| d)) :=
    Nat.shiftLeft_add_eq_or_of_lt (by rw [← more, ← last, Nat.shiftLeft_eq, Nat.shiftLeft_eq]; omega) a
  rw [Nat.or_assoc, Nat.or_assoc, ← whole, ← more, ← last]
  simp only [Nat.shiftLeft_eq]
  omega

theorem ofNat_congr {m : Nat} (same : m % 256 = n % 256) : UInt8.ofNat m = UInt8.ofNat n :=
  UInt8.toNat_inj.mp (by simpa using same)

theorem octets_triple {a b c d : Nat} (hb : b < 64) (hc : c < 64) (hd : d < 64) :
    [UInt8.ofNat (((a <<< 18) ||| (b <<< 12) ||| (c <<< 6) ||| d) >>> 16),
      UInt8.ofNat (((a <<< 18) ||| (b <<< 12) ||| (c <<< 6) ||| d) >>> 8),
      UInt8.ofNat ((a <<< 18) ||| (b <<< 12) ||| (c <<< 6) ||| d)] = Base64.octets [a, b, c, d] := by
  simp only [triple_eq hb hc hd, Nat.shiftRight_eq_div_pow, Base64.octets, List.cons.injEq, and_true]
  exact ⟨ofNat_congr (by omega), ofNat_congr (by omega), ofNat_congr (by omega)⟩

theorem octets_double {a b c : Nat} (hb : b < 64) (hc : c < 64) :
    [UInt8.ofNat (((a <<< 18) ||| (b <<< 12) ||| (c <<< 6)) >>> 16),
      UInt8.ofNat (((a <<< 18) ||| (b <<< 12) ||| (c <<< 6)) >>> 8)] = Base64.octets [a, b, c] := by
  have bits := triple_eq (a := a) hb hc (show 0 < 64 by decide)
  rw [Nat.or_zero] at bits
  simp only [bits, Nat.shiftRight_eq_div_pow, Base64.octets, List.cons.injEq, and_true]
  exact ⟨ofNat_congr (by omega), ofNat_congr (by omega)⟩

theorem octets_single {a b : Nat} (hb : b < 64) :
    [UInt8.ofNat (((a <<< 18) ||| (b <<< 12)) >>> 16)] = Base64.octets [a, b] := by
  have bits := triple_eq (a := a) hb (show 0 < 64 by decide) (show 0 < 64 by decide)
  rw [Nat.or_zero, Nat.zero_shiftLeft, Nat.or_zero] at bits
  simp only [bits, Nat.shiftRight_eq_div_pow, Base64.octets, List.cons.injEq, and_true]
  exact ofNat_congr (by omega)

theorem appendDecoded_cases (output : Buffer) (bytes : List UInt8) (limit : Nat) :
    (∃ capacity, appendDecoded output bytes limit = .ok ⟨output.bytes ++ bytes, capacity⟩ ∧
      output.bytes.length + bytes.length ≤ limit ∧ (output.capacity ≤ limit → capacity ≤ limit)) ∨
    (appendDecoded output bytes limit = .error .oversize ∧ limit < output.bytes.length + bytes.length) := by
  unfold appendDecoded
  dsimp only
  by_cases room : output.bytes.length + bytes.length > limit
  · exact .inr ⟨if_pos room, room⟩
  refine .inl ?_
  rw [if_neg room]
  by_cases grows : output.capacity < output.bytes.length + bytes.length
  · rw [if_pos grows]
    have enough : ¬min ((output.bytes.length + bytes.length + ((if limit ≥ 4096 then 4096 else 1) - 1)) /
        (if limit ≥ 4096 then 4096 else 1) * (if limit ≥ 4096 then 4096 else 1)) limit <
        output.bytes.length + bytes.length := by
      split_ifs <;> omega
    rw [if_neg enough]
    exact ⟨_, rfl, by omega, fun _ => Nat.min_le_right _ _⟩
  · rw [if_neg grows]
    exact ⟨_, rfl, by omega, id⟩

variable {bytes : List UInt8}

theorem appendDecoded_iff {output : Buffer} {result : List UInt8} {limit : Nat} :
    (∃ capacity, appendDecoded output bytes limit = .ok ⟨result, capacity⟩) ↔
      result = output.bytes ++ bytes ∧ result.length ≤ limit := by
  rcases appendDecoded_cases output bytes limit with ⟨capacity, appended, room, -⟩ | ⟨refused, full⟩
  · rw [appended]
    constructor
    · rintro ⟨_, ⟨⟩⟩
      exact ⟨rfl, by rwa [List.length_append]⟩
    · rintro ⟨rfl, -⟩
      exact ⟨capacity, rfl⟩
  · rw [refused]
    constructor
    · rintro ⟨_, ⟨⟩⟩
    · rintro ⟨rfl, room⟩
      rw [List.length_append] at room
      omega

namespace Base64Stream

def drain (d : Base64Stream) (text : List UInt8) (output : Buffer) (limit : Nat) : Except KittyApcReject Buffer := do
  let (d, output) ← d.push text output limit
  let (_, output) ← d.finish output limit
  return output

theorem drain_cons (d : Base64Stream) (byte : UInt8) (text : List UInt8) (output : Buffer) (limit : Nat) :
    d.drain (byte :: text) output limit = (do
      let (d, output) ← d.pushByte byte output limit
      d.drain text output limit) := by
  simp only [drain, push]
  cases d.pushByte byte output limit <;> rfl

variable {byte : UInt8}

theorem pushByte_symbol {n : Nat} (value : sextet byte = some n) (carry : List UInt8) (output : Buffer)
    (limit : Nat) : ({ carry } : Base64Stream).pushByte byte output limit =
      if (carry ++ [byte]).length = 4 then finishFull { carry := carry ++ [byte] } output limit
      else .ok ({ carry := carry ++ [byte] }, output) := by
  simp [pushByte, ne_pad value, value]

theorem pushByte_other (value : sextet byte = none) (other : byte ≠ 0x3D) (carry : List UInt8) (output : Buffer)
    (limit : Nat) : ({ carry } : Base64Stream).pushByte byte output limit = .error .badBase64 := by
  simp [pushByte, other, value]

theorem drain_finished {d : Base64Stream} (finished : d.finished) (text : List UInt8) (output : Buffer) (limit : Nat) :
    d.drain text output limit = if text = [] then .ok output else .error .badBase64 := by
  cases text with
  | nil => simp [drain, push, finish, finished, bind, Except.bind, pure, Except.pure]
  | cons byte text => simp [drain_cons, pushByte, finished, bind, Except.bind]

variable {d : Base64Stream} {carry : List UInt8} {sextets : List Nat} {output : Buffer} {result : List UInt8} {limit : Nat}

theorem lt_of_mem (values : carry.map sextet = sextets.map some) : ∀ n ∈ sextets, n < 64 := by
  intro n member
  have here : some n ∈ carry.map sextet := values ▸ List.mem_map_of_mem member
  obtain ⟨byte, -, value⟩ := List.mem_map.mp here
  exact sextet_lt value

theorem finishFull_eq (values : d.carry.map sextet = sextets.map some) (full : sextets.length = 4) :
    d.finishFull output limit = (appendDecoded output (Base64.octets sextets) limit).map ({ d with carry := [] }, ·) := by
  have bounds := lt_of_mem values
  match sextets with
  | [i, j, k, l] =>
    have hj := bounds j (by simp)
    have hk := bounds k (by simp)
    have hl := bounds l (by simp)
    simp only [finishFull, values, List.map_cons, List.map_nil, octets_triple hj hk hl]
    rfl

theorem finishPadded_eq (values : d.carry.map sextet = sextets.map some)
    (closes : d.padding = 1 ∧ sextets.length = 3 ∨ d.padding = 2 ∧ sextets.length = 2) :
    d.finishPadded output limit = (appendDecoded output (Base64.octets sextets) limit).map ({ d with carry := [] }, ·) := by
  have bounds := lt_of_mem values
  have same : d.carry.length = sextets.length := by simpa using congrArg List.length values
  rcases closes with ⟨single, triple⟩ | ⟨double, pair⟩
  · match sextets with
    | [i, j, k] =>
      have hj := bounds j (by simp)
      have hk := bounds k (by simp)
      simp only [finishPadded, single, if_true, same, triple, ne_eq, not_true_eq_false, if_false, values, List.map_cons,
        List.map_nil, octets_double hj hk]
      rfl
  · match sextets with
    | [i, j] =>
      have hj := bounds j (by simp)
      simp only [finishPadded, double, show ¬2 = 1 by decide, if_false, same, pair, ne_eq, not_true_eq_false, values,
        List.map_cons, List.map_nil, octets_single hj]
      rfl

theorem finishTail_eq (values : d.carry.map sextet = sextets.map some) (opened : sextets.length = 2 ∨ sextets.length = 3) :
    d.finishTail output limit = appendDecoded output (Base64.octets sextets) limit := by
  have bounds := lt_of_mem values
  rcases opened with pair | triple
  · match sextets with
    | [i, j] =>
      have hj := bounds j (by simp)
      simp only [finishTail, values, List.map_cons, List.map_nil, octets_single hj]
  · match sextets with
    | [i, j, k] =>
      have hj := bounds j (by simp)
      have hk := bounds k (by simp)
      simp only [finishTail, values, List.map_cons, List.map_nil, octets_double hj hk]

variable {output' : Buffer}

theorem appendDecoded_capacity {bytes : List UInt8} (appended : appendDecoded output bytes limit = .ok output')
    (within : output.capacity ≤ limit) : output'.capacity ≤ limit := by
  rcases appendDecoded_cases output bytes limit with ⟨capacity, same, -, fits⟩ | ⟨refused, -⟩
  · cases same.symm.trans appended
    exact fits within
  · cases refused.symm.trans appended

variable {d' : Base64Stream}

theorem pushByte_capacity
    (pushed : d.pushByte byte output limit = .ok (d', output')) (within : output.capacity ≤ limit) :
    output'.capacity ≤ limit := by
  have full {d d' : Base64Stream} (closed : d.finishFull output limit = .ok (d', output')) : output'.capacity ≤ limit := by
    unfold finishFull at closed
    split at closed
    · obtain ⟨_, appended, rest⟩ := Except.bind_ok closed
      cases rest
      exact appendDecoded_capacity appended within
    · cases closed
  have padded {d d' : Base64Stream} {output' : Buffer} (closed : d.finishPadded output limit = .ok (d', output')) :
      output'.capacity ≤ limit := by
    unfold finishPadded at closed
    generalize (if d.padding = 1 then 3 else 2) = expected at closed
    dsimp only at closed
    split at closed
    · cases closed
    · split at closed
      · obtain ⟨_, appended, rest⟩ := Except.bind_ok closed
        cases rest
        exact appendDecoded_capacity appended within
      · obtain ⟨_, appended, rest⟩ := Except.bind_ok closed
        cases rest
        exact appendDecoded_capacity appended within
      · cases closed
  unfold pushByte at pushed
  dsimp only at pushed
  split_ifs at pushed
  all_goals first
    | exact full pushed
    | (cases pushed; exact within)
    | (obtain ⟨_, closed, rest⟩ := Except.bind_ok pushed
       cases rest
       exact padded closed)

theorem push_capacity {text : List UInt8}
    (pushed : d.push text output limit = .ok (d', output')) (within : output.capacity ≤ limit) : output'.capacity ≤ limit := by
  induction text generalizing d output with
  | nil =>
    cases pushed
    exact within
  | cons byte rest ih =>
    obtain ⟨⟨d₁, output₁⟩, first, others⟩ := Except.bind_ok pushed
    exact ih others (pushByte_capacity first within)

theorem finish_capacity (finished : d.finish output limit = .ok (d', output'))
    (within : output.capacity ≤ limit) : output'.capacity ≤ limit := by
  unfold finish at finished
  split_ifs at finished
  · cases finished
    exact within
  · split at finished
    · cases finished
      exact within
    · cases finished
    · obtain ⟨_, tail, rest⟩ := Except.bind_ok finished
      cases rest
      unfold finishTail at tail
      split at tail
      · exact appendDecoded_capacity tail within
      · exact appendDecoded_capacity tail within
      · cases tail

theorem run_of_values (values : carry.map sextet = sextets.map some) : standard.run carry = some (Base64.octets sextets) :=
  Base64.run_eq_some.mpr ⟨sextets, values, rfl⟩

theorem pad_notMem (values : carry.map sextet = sextets.map some) : standard.pad ∉ carry :=
  Base64.pad_notMem_of_run (run_of_values values)

theorem drain_nil_iff (values : carry.map sextet = sextets.map some) (short : sextets.length < 4)
    (within : output.bytes.length ≤ limit) :
    (∃ capacity, ({ carry } : Base64Stream).drain [] output limit = .ok ⟨result, capacity⟩) ↔
      ∃ bytes, standard.Encodes carry bytes ∧ result = output.bytes ++ bytes ∧ result.length ≤ limit := by
  have same : carry.length = sextets.length := by simpa using congrArg List.length values
  have ends : ({ carry } : Base64Stream).drain [] output limit =
      if carry.length = 0 then .ok output else if carry.length = 1 then .error .badBase64
      else finishTail { carry } output limit := by
    simp only [drain, push, finish, bind, Except.bind, ne_eq, not_true_eq_false, if_false, Bool.false_eq_true]
    rcases carry.length with _ | _ | n
    · rfl
    · rfl
    · cases finishTail { carry } output limit <;> rfl
  simp only [Base64.encodes_solid (pad_notMem values), run_of_values values, Option.some.injEq]
  rw [ends, same]
  rcases sextets with _ | ⟨i, _ | ⟨j, _ | ⟨k, _ | ⟨l, rest⟩⟩⟩⟩
  · constructor
    · rintro ⟨capacity, ⟨⟩⟩
      exact ⟨[], ⟨by decide, rfl⟩, by simp, within⟩
    · rintro ⟨_, ⟨-, rfl⟩, rfl, -⟩
      exact ⟨output.capacity, by simp [Base64.octets]⟩
  · simp
  · simp only [List.length_cons, List.length_nil, finishTail_eq (d := { carry }) values (.inl rfl)]
    simp [appendDecoded_iff]
  · simp only [List.length_cons, List.length_nil, finishTail_eq (d := { carry }) values (.inr rfl)]
    simp [appendDecoded_iff]
  · simp only [List.length_cons] at short
    omega

theorem closed_iff {closed : Base64Stream} (finished : closed.finished) {bytes : List UInt8} (text : List UInt8) :
    (∃ capacity, (((appendDecoded output bytes limit).map (closed, ·)) >>= fun (d, output) => d.drain text output limit) =
      .ok ⟨result, capacity⟩) ↔ text = [] ∧ result = output.bytes ++ bytes ∧ result.length ≤ limit := by
  rw [← appendDecoded_iff]
  cases appendDecoded output bytes limit with
  | error reason => simp [Except.map, bind, Except.bind]
  | ok output => by_cases ends : text = [] <;> simp [Except.map, bind, Except.bind, drain_finished finished, ends]

theorem drain_padding (values : carry.map sextet = sextets.map some) (pair : sextets.length = 2) (text : List UInt8) :
    (∃ capacity, ({ carry, padding := 1 } : Base64Stream).drain text output limit = .ok ⟨result, capacity⟩) ↔
      text = [0x3D] ∧ result = output.bytes ++ Base64.octets sextets ∧ result.length ≤ limit := by
  match text with
  | [] => simp [drain, push, finish, bind, Except.bind]
  | y :: rest =>
    rw [drain_cons]
    by_cases more : y = 0x3D
    · subst more
      have closing : ({ carry, padding := 1 } : Base64Stream).pushByte 0x3D output limit =
          (appendDecoded output (Base64.octets sextets) limit).map
            (({ carry := [], padding := 2, finished := true } : Base64Stream), ·) := by
        have closed : finishPadded { carry, padding := 2 } output limit = _ := finishPadded_eq values (.inr ⟨rfl, pair⟩)
        simp only [pushByte, Bool.false_eq_true, if_false, ne_eq, Nat.one_ne_zero, not_false_eq_true, if_true,
          not_true_eq_false, Nat.reduceAdd, gt_iff_lt, Nat.lt_irrefl, closed]
        cases appendDecoded output (Base64.octets sextets) limit <;> rfl
      rw [closing, closed_iff rfl]
      simp
    · simp [pushByte, more, bind, Except.bind]

theorem closes_pad_iff {symbols : Nat} (short : symbols < 4) (text : List UInt8) :
    (∃ padding, 0x3D :: text = List.replicate padding 0x3D ∧ Base64.Closes symbols padding) ↔
      symbols = 3 ∧ text = [] ∨ symbols = 2 ∧ text = [0x3D] := by
  unfold Base64.Closes
  constructor
  · rintro ⟨padding, same, ⟨rfl, -⟩ | ⟨rfl, three⟩ | ⟨rfl, two⟩⟩
    · cases same
    · exact .inl ⟨by omega, by simpa using same⟩
    · exact .inr ⟨by omega, by simpa using same⟩
  · rintro (⟨rfl, rfl⟩ | ⟨rfl, rfl⟩)
    · exact ⟨1, rfl, .inr (.inl ⟨rfl, rfl⟩)⟩
    · exact ⟨2, rfl, .inr (.inr ⟨rfl, rfl⟩)⟩

theorem drain_pad_iff (values : carry.map sextet = sextets.map some) (short : sextets.length < 4) (text : List UInt8) :
    (∃ capacity, ({ carry } : Base64Stream).drain (0x3D :: text) output limit = .ok ⟨result, capacity⟩) ↔
      (∃ padding, 0x3D :: text = List.replicate padding 0x3D ∧ Base64.Closes carry.length padding) ∧
        result = output.bytes ++ Base64.octets sextets ∧ result.length ≤ limit := by
  have same : carry.length = sextets.length := by simpa using congrArg List.length values
  rw [drain_cons, closes_pad_iff (same ▸ short), same]
  by_cases few : sextets.length < 2
  · have refused : ({ carry } : Base64Stream).pushByte 0x3D output limit = .error .badBase64 := by
      simp [pushByte, same, few]
    rw [refused]
    constructor
    · rintro ⟨_, ⟨⟩⟩
    · rintro ⟨closes, -⟩
      omega
  by_cases triple : sextets.length = 3
  · have closing : ({ carry } : Base64Stream).pushByte 0x3D output limit =
        (appendDecoded output (Base64.octets sextets) limit).map
          (({ carry := [], padding := 1, finished := true } : Base64Stream), ·) := by
      have closed : finishPadded { carry, padding := 1 } output limit = _ := finishPadded_eq values (.inl ⟨rfl, triple⟩)
      simp only [pushByte, Bool.false_eq_true, if_false, ne_eq, not_true_eq_false, if_true, same, triple, closed]
      cases appendDecoded output (Base64.octets sextets) limit <;> rfl
    rw [closing, closed_iff rfl]
    simp [triple]
  · have pair : sextets.length = 2 := by omega
    have opening : ({ carry } : Base64Stream).pushByte 0x3D output limit = .ok ({ carry, padding := 1 }, output) := by
      simp [pushByte, same, pair]
    rw [opening]
    refine (drain_padding values pair text).trans ?_
    simp [pair]

/-- A stream with an open quantum succeeds exactly on what completes it. -/
theorem drain_iff (text : List UInt8) (values : carry.map sextet = sextets.map some) (short : sextets.length < 4)
    (within : output.bytes.length ≤ limit) :
    (∃ capacity, ({ carry } : Base64Stream).drain text output limit = .ok ⟨result, capacity⟩) ↔
      ∃ bytes, standard.Encodes (carry ++ text) bytes ∧ result = output.bytes ++ bytes ∧ result.length ≤ limit := by
  induction text generalizing carry sextets output with
  | nil => simpa using drain_nil_iff values short within
  | cons x rest ih =>
    have same : carry.length = sextets.length := by simpa using congrArg List.length values
    rw [drain_cons]
    cases value : sextet x with
    | some n =>
      have longer : (carry ++ [x]).map sextet = (sextets ++ [n]).map some := by simp [values, value]
      rw [pushByte_symbol value, List.length_append, same]
      by_cases full : sextets.length + [x].length = 4
      · have quad : (carry ++ [x]).length = 4 := by simpa [same] using full
        rw [if_pos full, finishFull_eq longer (by simpa using full), List.append_cons carry x rest]
        simp only [Base64.encodes_quantum (run_of_values longer) quad]
        rcases appendDecoded_cases output (Base64.octets (sextets ++ [n])) limit with
          ⟨capacity, appended, room, -⟩ | ⟨refused, full⟩
        · rw [appended]
          refine (@ih [] [] ⟨_, capacity⟩ rfl (by decide) (by simpa using room)).trans ?_
          simp
        · rw [refused]
          constructor
          · rintro ⟨_, ⟨⟩⟩
          · rintro ⟨_, ⟨tail, -, rfl⟩, rfl, room⟩
            simp only [List.length_append] at room
            omega
      · rw [if_neg full]
        have short : (sextets ++ [n]).length < 4 := by simp at full ⊢; omega
        simpa [bind, Except.bind] using ih longer short within
    | none =>
      by_cases padding : x = 0x3D
      · subst padding
        rw [← drain_cons, drain_pad_iff values short]
        simp only [show (0x3D : UInt8) = standard.pad from rfl, Base64.encodes_padded (pad_notMem values), run_of_values values,
          Option.some.injEq]
        constructor
        · rintro ⟨⟨padding, pads, closes⟩, rfl, room⟩
          exact ⟨_, ⟨padding, pads, closes, rfl⟩, rfl, room⟩
        · rintro ⟨_, ⟨padding, pads, closes, rfl⟩, rfl, room⟩
          exact ⟨⟨padding, pads, closes⟩, rfl, room⟩
      · rw [pushByte_other value padding]
        constructor
        · rintro ⟨_, ⟨⟩⟩
        · rintro ⟨bytes, encodes, -⟩
          exact absurd encodes (Base64.not_encodes value padding (by simp))

theorem drain_start_iff (text : List UInt8) :
    (∃ capacity, ({} : Base64Stream).drain text {} limit = .ok ⟨result, capacity⟩) ↔
      standard.Encodes text result ∧ result.length ≤ limit := by
  refine (@drain_iff [] [] {} _ _ text rfl (by decide) (Nat.zero_le _)).trans ?_
  simp only [List.nil_append]
  constructor
  · rintro ⟨_, encodes, rfl, room⟩
    exact ⟨encodes, room⟩
  · rintro ⟨encodes, room⟩
    exact ⟨result, encodes, rfl, room⟩

end Base64Stream

/-- The whole quanta of an `OSC 99` payload. -/
def decodeFull : List UInt8 → Option (List UInt8)
  | a :: b :: c :: d :: rest => do
    let triple := ((← sextet a) <<< 18) ||| ((← sextet b) <<< 12) ||| ((← sextet c) <<< 6) ||| (← sextet d)
    let out ← decodeFull rest
    return UInt8.ofNat (triple >>> 16) :: UInt8.ofNat (triple >>> 8) :: UInt8.ofNat triple :: out
  | _ => some []

def decodeTail : List UInt8 → Option (List UInt8)
  | [] => some []
  | [a, b] => do
    let bits := ((← sextet a) <<< 18) ||| ((← sextet b) <<< 12)
    return [UInt8.ofNat (bits >>> 16)]
  | [a, b, c] => do
    let bits := ((← sextet a) <<< 18) ||| ((← sextet b) <<< 12) ||| ((← sextet c) <<< 6)
    return [UInt8.ofNat (bits >>> 16), UInt8.ofNat (bits >>> 8)]
  | _ => none

def decodeBody (body : List UInt8) : Option (List UInt8) := do
  let out ← decodeFull (body.take (body.length / 4 * 4))
  let rest ← decodeTail (body.drop (body.length / 4 * 4))
  return out ++ rest

def decodeKittyBase64 (input : List UInt8) : Option (List UInt8) :=
  if input = [] then some []
  else if input.length % 4 = 1 then none
  else
    let pad := (input.rtakeWhile (· = 0x3D)).length
    if pad > 2 then none
    else
      let body := input.take (input.length - pad)
      if 0x3D ∈ body then none else decodeBody body

theorem decodeFull_cons {a b c d : UInt8} (rest : List UInt8) : decodeFull (a :: b :: c :: d :: rest) = (do
    let quantum ← standard.run [a, b, c, d]
    let out ← decodeFull rest
    return quantum ++ out) := by
  simp only [decodeFull, Base64.run, List.mapM_cons, List.mapM_nil, show standard.value = sextet from rfl]
  cases va : sextet a <;> cases vb : sextet b <;> cases vc : sextet c <;> cases vd : sextet d <;> simp
  rename_i i j k l
  simp [← octets_triple (a := i) (sextet_lt vb) (sextet_lt vc) (sextet_lt vd)]

theorem decodeTail_eq {tail : List UInt8} (short : tail.length < 4) :
    decodeTail tail = if tail.length = 1 then none else standard.run tail := by
  match tail with
  | [] => rfl
  | [_] => rfl
  | [a, b] =>
    simp only [decodeTail, Base64.run, List.mapM_cons, List.mapM_nil, show standard.value = sextet from rfl]
    cases va : sextet a <;> cases vb : sextet b <;> simp
    rename_i i j
    simp [← octets_single (a := i) (sextet_lt vb)]
  | [a, b, c] =>
    simp only [decodeTail, Base64.run, List.mapM_cons, List.mapM_nil, show standard.value = sextet from rfl]
    cases va : sextet a <;> cases vb : sextet b <;> cases vc : sextet c <;> simp
    rename_i i j k
    simp [← octets_double (a := i) (sextet_lt vb) (sextet_lt vc)]

theorem decodeBody_eq (body : List UInt8) : decodeBody body = if body.length % 4 = 1 then none else standard.run body := by
  match body with
  | a :: b :: c :: d :: rest =>
    have whole : (a :: b :: c :: d :: rest).length / 4 * 4 = rest.length / 4 * 4 + 4 := by
      simp only [List.length_cons]
      omega
    have left : (a :: b :: c :: d :: rest).length % 4 = rest.length % 4 := by
      simp only [List.length_cons]
      omega
    rw [decodeBody, whole, left, Base64.run_cons]
    simp only [List.take_succ_cons, List.drop_succ_cons, decodeFull_cons]
    have ih := decodeBody_eq rest
    unfold decodeBody at ih
    by_cases odd : rest.length % 4 = 1
    · rw [if_pos odd] at ih ⊢
      revert ih
      cases standard.run [a, b, c, d] <;> cases decodeFull (rest.take (rest.length / 4 * 4)) <;>
        cases decodeTail (rest.drop (rest.length / 4 * 4)) <;> simp
    · rw [if_neg odd] at ih ⊢
      rw [← ih]
      cases standard.run [a, b, c, d] <;> cases decodeFull (rest.take (rest.length / 4 * 4)) <;>
        cases decodeTail (rest.drop (rest.length / 4 * 4)) <;> simp
  | [] => rfl
  | [_] => simp [decodeBody, decodeFull, decodeTail]
  | [a, b] => simpa [decodeBody, decodeFull] using decodeTail_eq (show [a, b].length < 4 by simp)
  | [a, b, c] => simpa [decodeBody, decodeFull] using decodeTail_eq (show [a, b, c].length < 4 by simp)

theorem trailing_split (symbol : UInt8) (input : List UInt8) :
    input = input.take (input.length - (input.rtakeWhile (· = symbol)).length) ++
      List.replicate (input.rtakeWhile (· = symbol)).length symbol := by
  have all : input.rtakeWhile (· = symbol) = List.replicate (input.rtakeWhile (· = symbol)).length symbol :=
    List.eq_replicate_of_mem fun b member => by simpa using List.mem_rtakeWhile_imp member
  obtain ⟨front, whole⟩ := input.rtakeWhile_suffix (· = symbol)
  generalize input.rtakeWhile (· = symbol) = trailing at all whole
  rw [← whole, List.length_append, Nat.add_sub_cancel, List.take_left, ← all]

variable {body : List UInt8}

theorem trailing_append (symbol : UInt8) (solid : symbol ∉ body) (padding : Nat) :
    (body ++ List.replicate padding symbol).rtakeWhile (· = symbol) = List.replicate padding symbol := by
  induction padding with
  | zero =>
    rw [List.replicate_zero, List.append_nil]
    exact List.rtakeWhile_eq_nil_iff.mpr fun some last => solid (of_decide_eq_true last ▸ body.getLast_mem some)
  | succ padding ih => rw [List.replicate_succ', ← List.append_assoc, List.rtakeWhile_concat_pos _ _ _ (by simp), ih]

theorem decodeKittyBase64_eq_some_iff {input : List UInt8} : decodeKittyBase64 input = some bytes ↔
    ∃ body padding, input = body ++ List.replicate padding 0x3D ∧ input.length % 4 ≠ 1 ∧ padding ≤ 2 ∧
      body.length % 4 ≠ 1 ∧ standard.run body = some bytes := by
  unfold decodeKittyBase64
  dsimp only
  constructor
  · intro read
    split_ifs at read with blank odd many inside
    · cases read
      exact ⟨[], 0, blank, by simp [blank], by decide, by decide, rfl⟩
    · rw [decodeBody_eq] at read
      split_ifs at read with broken
      exact ⟨_, _, trailing_split 0x3D input, odd, Nat.not_lt.mp many, broken, read⟩
  · rintro ⟨body, padding, rfl, odd, few, whole, runs⟩
    have solid : (0x3D : UInt8) ∉ body := Base64.pad_notMem_of_run runs
    rw [if_neg odd, trailing_append 0x3D solid, List.length_replicate, if_neg (Nat.not_lt.mpr few), List.length_append,
      List.length_replicate, Nat.add_sub_cancel, List.take_left, if_neg solid, decodeBody_eq, if_neg whole, runs]
    split_ifs with blank
    · obtain ⟨rfl, -⟩ := List.append_eq_nil_iff.mp blank
      exact runs
    · rfl

/-- Padding that completes no quantum, where each decoder looks for a different fault. -/
def Misplaced (text : List UInt8) : Prop :=
  ∃ body padding, text = body ++ List.replicate padding 0x3D ∧ (∀ symbol ∈ body, (sextet symbol).isSome) ∧
    (padding = 1 ∧ body.length % 4 = 2 ∨ padding = 2 ∧ body.length % 4 = 0)

/-- The two decoders accept a text together and read the same from it. -/
def Agree (text : List UInt8) : Prop := ∀ limit, text.length ≤ limit → ∀ bytes,
  decodeKittyBase64 text = some bytes ↔ ∃ capacity, ({} : Base64Stream).drain text {} limit = .ok ⟨bytes, capacity⟩

theorem isSome_of_run (runs : standard.run body = some bytes) : ∀ symbol ∈ body, (sextet symbol).isSome := by
  intro symbol member
  by_contra foreign
  exact nomatch (Base64.run_eq_none (Option.not_isSome_iff_eq_none.mp foreign) member).symm.trans runs

theorem run_of_isSome (known : ∀ symbol ∈ body, (sextet symbol).isSome) : ∃ bytes, standard.run body = some bytes := by
  refine ⟨_, Base64.run_eq_some.mpr ⟨body.map fun symbol => (sextet symbol).getD 0, ?_, rfl⟩⟩
  rw [List.map_map]
  refine List.map_congr_left fun symbol member => ?_
  obtain ⟨n, value⟩ := Option.isSome_iff_exists.mp (known symbol member)
  simp [standard, value]

theorem decoders_agree_iff (text : List UInt8) : Agree text ↔ ¬Misplaced text := by
  constructor
  · rintro agree ⟨body, padding, rfl, known, loose⟩
    obtain ⟨bytes, runs⟩ := run_of_isSome known
    have accepted : decodeKittyBase64 (body ++ List.replicate padding 0x3D) = some bytes :=
      decodeKittyBase64_eq_some_iff.mpr ⟨body, padding, rfl, by simp; omega, by omega, by omega, runs⟩
    obtain ⟨encodes, -⟩ := (Base64Stream.drain_start_iff _).mp ((agree _ le_rfl bytes).mp accepted)
    obtain ⟨closes, -⟩ := (Base64.encodes_replicate (Base64.pad_notMem_of_run runs) padding).mp encodes
    unfold Base64.Closes at closes
    omega
  · intro placed limit room bytes
    rw [Base64Stream.drain_start_iff, decodeKittyBase64_eq_some_iff]
    constructor
    · rintro ⟨body, padding, rfl, odd, few, whole, runs⟩
      have fits := Base64.length_of_run runs
      have loose : ¬(padding = 1 ∧ body.length % 4 = 2 ∨ padding = 2 ∧ body.length % 4 = 0) :=
        fun loose => placed ⟨body, padding, rfl, isSome_of_run runs, loose⟩
      rw [List.length_append, List.length_replicate] at odd room
      exact ⟨⟨body, padding, rfl, by unfold Base64.Closes; omega, runs⟩, by omega⟩
    · rintro ⟨⟨body, padding, rfl, closes, runs⟩, -⟩
      unfold Base64.Closes at closes
      exact ⟨body, padding, rfl, by simp; omega, by omega, by omega, runs⟩

/-- `AA=` leaves its quantum open: one decoder reads a byte from it, the other refuses it. -/
theorem decoders_disagree : decodeKittyBase64 [0x41, 0x41, 0x3D] = some [0] ∧
    ({} : Base64Stream).drain [0x41, 0x41, 0x3D] {} 3 = .error .badBase64 ∧ ¬∀ text, Agree text := by
  have read : decodeKittyBase64 [0x41, 0x41, 0x3D] = some [0] := by decide
  have refused : ({} : Base64Stream).drain [0x41, 0x41, 0x3D] {} 3 = .error .badBase64 := by decide
  refine ⟨read, refused, fun agree => ?_⟩
  obtain ⟨capacity, accepted⟩ := (agree _ 3 le_rfl [0]).mp read
  cases refused.symm.trans accepted

end Bitty.Vt
