import Bitty.Package.Grammar

namespace Bitty.Package

open Text

/-! Comparisons of texts and numbers. -/

theorem compare_cons {α : Type} [LinearOrder α] (c d : α) (cs ds : List α) :
    @compare (List α) LinearOrder.toOrd (c :: cs) (d :: ds) =
      (compare c d).then (@compare (List α) LinearOrder.toOrd cs ds) := by
  rcases lt_trichotomy c d with less | rfl | more
  · rw [compare_lt_iff_lt.mpr less, Ordering.lt_then]
    exact compare_lt_iff_lt.mpr (List.Lex.rel less)
  · rw [compare_eq_iff_eq.mpr (rfl : c = c), Ordering.eq_then]
    rcases lt_trichotomy cs ds with less | rfl | more
    · rw [compare_lt_iff_lt.mpr less]
      exact compare_lt_iff_lt.mpr (List.Lex.cons less)
    · rw [compare_eq_iff_eq.mpr (rfl : cs = cs)]
      exact compare_eq_iff_eq.mpr rfl
    · rw [compare_gt_iff_gt.mpr more]
      exact compare_gt_iff_gt.mpr (List.Lex.cons more)
  · rw [compare_gt_iff_gt.mpr more, Ordering.gt_then]
    exact compare_gt_iff_gt.mpr (List.Lex.rel more)

theorem compare_text (a b : Text) : @compare Text List.instOrd a b = @compare Text LinearOrder.toOrd a b := by
  induction a generalizing b with
  | nil =>
    cases b with
    | nil => exact (compare_eq_iff_eq.mpr rfl).symm
    | cons d ds => exact (compare_lt_iff_lt.mpr (List.nil_lt_cons d ds)).symm
  | cons c cs ih =>
    cases b with
    | nil => exact (compare_gt_iff_gt.mpr (List.nil_lt_cons c cs)).symm
    | cons d ds =>
      rw [List.compare_cons_cons, ih, compare_cons]

theorem compare_digitChar : ∀ d < 10, ∀ e < 10, compare d.digitChar e.digitChar = compare d e := by decide

theorem ofDigitChars_digit {d : Nat} (small : d < 10) (rest : Text) :
    Nat.ofDigitChars 10 (d.digitChar :: rest) 0 = 10 ^ rest.length * d + Nat.ofDigitChars 10 rest 0 := by
  rw [Nat.ofDigitChars_cons_digitChar_of_lt_ten small, Nat.ofDigitChars_eq_ofDigitChars_zero, Nat.mul_zero, Nat.zero_add]

theorem ofDigitChars_lt {a : Text} (digits : ∀ c ∈ a, c.isDigit = true) : Nat.ofDigitChars 10 a 0 < 10 ^ a.length := by
  induction a with
  | nil => simp
  | cons c rest ih =>
    obtain ⟨d, small, rfl⟩ := exists_digitChar (digits c List.mem_cons_self)
    have below := ih fun e member => digits e (List.mem_cons_of_mem _ member)
    rw [ofDigitChars_digit small, List.length_cons]
    calc 10 ^ rest.length * d + Nat.ofDigitChars 10 rest 0 < 10 ^ rest.length * d + 10 ^ rest.length := by omega
      _ = 10 ^ rest.length * (d + 1) := by ring
      _ ≤ 10 ^ rest.length * 10 := Nat.mul_le_mul_left _ small
      _ = 10 ^ (rest.length + 1) := (pow_succ 10 _).symm

theorem compare_digits {a b : Text} (digits : ∀ c ∈ a, c.isDigit = true) (digits' : ∀ c ∈ b, c.isDigit = true)
    (length : a.length = b.length) :
    compare a b = compare (Nat.ofDigitChars 10 a 0) (Nat.ofDigitChars 10 b 0) := by
  induction a generalizing b with
  | nil =>
    obtain rfl := List.length_eq_zero_iff.mp length.symm
    rfl
  | cons c rest ih =>
    cases b with
    | nil => cases length
    | cons c' rest' =>
      have same : rest.length = rest'.length := Nat.succ.inj length
      obtain ⟨d, small, rfl⟩ := exists_digitChar (digits c List.mem_cons_self)
      obtain ⟨e, small', rfl⟩ := exists_digitChar (digits' c' List.mem_cons_self)
      have later : ∀ c ∈ rest, c.isDigit = true := fun f member => digits f (List.mem_cons_of_mem _ member)
      have later' : ∀ c ∈ rest', c.isDigit = true := fun f member => digits' f (List.mem_cons_of_mem _ member)
      have below := ofDigitChars_lt later
      have below' := ofDigitChars_lt later'
      rw [List.compare_cons_cons, ih later later' same, compare_digitChar d small e small',
        ofDigitChars_digit small, ofDigitChars_digit small', same]
      rw [same] at below
      generalize 10 ^ rest'.length = unit at *
      rcases lt_trichotomy d e with less | rfl | more
      · rw [compare_lt_iff_lt.mpr less, Ordering.lt_then]
        refine (compare_lt_iff_lt.mpr ?_).symm
        have step : unit * (d + 1) ≤ unit * e := Nat.mul_le_mul_left _ less
        rw [Nat.mul_succ] at step
        omega
      · rw [compare_eq_iff_eq.mpr (rfl : d = d), Ordering.eq_then]
        rcases lt_trichotomy (Nat.ofDigitChars 10 rest 0) (Nat.ofDigitChars 10 rest' 0) with less | eq | more
        · rw [compare_lt_iff_lt.mpr less, compare_lt_iff_lt.mpr (by omega)]
        · rw [eq]
          simp
        · rw [compare_gt_iff_gt.mpr more, compare_gt_iff_gt.mpr (by omega)]
      · rw [compare_gt_iff_gt.mpr more, Ordering.gt_then]
        refine (compare_gt_iff_gt.mpr ?_).symm
        have step : unit * (e + 1) ≤ unit * d := Nat.mul_le_mul_left _ more
        rw [Nat.mul_succ] at step
        omega

/-! The program's comparisons. -/

namespace Version

theorem length_number_lt {m n : Nat} (shorter : (number m).length < (number n).length) : m < n := by
  by_contra long
  have mono := byteLen_number_mono (Nat.le_of_not_lt long)
  rw [byteLen_number, byteLen_number] at mono
  omega

theorem dropWhile_number (n : Nat) : (number n).dropWhile (· = '0') = if n = 0 then [] else number n := by
  by_cases zero : n = 0
  · subst zero
    rfl
  · rw [if_neg zero]
    cases shape : number n with
    | nil => rfl
    | cons c rest =>
      refine List.dropWhile_cons_of_neg ?_
      intro same
      have head : (number n).head? = some '0' := by simpa [shape] using same
      exact zero (head_number head)

theorem compareNumericIdentifiers_number (m n : Nat) :
    compareNumericIdentifiers (number m) (number n) = compare m n := by
  have positive (k : Nat) : 0 < (number k).length := byteLen_number k ▸ byteLen_number_pos k
  have digits (k : Nat) : ∀ c ∈ number k, c.isDigit = true := fun _ => isDigit_of_mem_number
  unfold compareNumericIdentifiers
  simp only [dropWhile_number]
  by_cases zeroM : m = 0
  · by_cases zeroN : n = 0
    · rw [if_pos zeroM, if_pos zeroN, zeroM, zeroN]
      rfl
    · rw [if_pos zeroM, if_neg zeroN, byteLen_nil, compare_lt_iff_lt.mpr (byteLen_number_pos n), Ordering.lt_then]
      exact (compare_lt_iff_lt.mpr (by omega)).symm
  · by_cases zeroN : n = 0
    · rw [if_neg zeroM, if_pos zeroN, byteLen_nil, compare_gt_iff_gt.mpr (byteLen_number_pos m), Ordering.gt_then]
      exact (compare_gt_iff_gt.mpr (by omega)).symm
    · rw [if_neg zeroM, if_neg zeroN, byteLen_number, byteLen_number]
      rcases lt_trichotomy (number m).length (number n).length with less | same | more
      · rw [compare_lt_iff_lt.mpr less, compare_lt_iff_lt.mpr (length_number_lt less)]
        rfl
      · rw [compare_eq_iff_eq.mpr same, Ordering.eq_then, compare_digits (digits m) (digits n) same, number, number,
          Nat.ofDigitChars_ten_toDigits, Nat.ofDigitChars_ten_toDigits]
      · rw [compare_gt_iff_gt.mpr more, compare_gt_iff_gt.mpr (length_number_lt more)]
        rfl

theorem compareIdentifiers_text {i j : Semver.Identifier} (written : IsPrerelease i) (written' : IsPrerelease j) :
    compareIdentifiers i.text j.text = compare i j := by
  have digits (n : Nat) : (number n).all Char.isDigit = true := List.all_eq_true.mpr fun _ => isDigit_of_mem_number
  unfold compareIdentifiers
  cases i with
  | numeric m =>
    cases j with
    | numeric n =>
      simp only [Semver.Identifier.text, digits, Semver.Identifier.compare_numeric]
      exact compareNumericIdentifiers_number m n
    | alphanumeric u =>
      simp only [Semver.Identifier.text, digits, (written' u rfl).2, Semver.Identifier.compare_numeric_alphanumeric]
  | alphanumeric t =>
    cases j with
    | numeric n =>
      simp only [Semver.Identifier.text, digits, (written t rfl).2, Semver.Identifier.compare_alphanumeric_numeric]
    | alphanumeric u =>
      simp only [Semver.Identifier.text, (written t rfl).2, (written' u rfl).2, Semver.Identifier.compare_alphanumeric]
      exact compare_text t u

theorem comparePrerelease_zip (is js : List Semver.Identifier) (written : ∀ i ∈ is, IsPrerelease i)
    (written' : ∀ j ∈ js, IsPrerelease j) :
    ((((is.map Semver.Identifier.text).zip (js.map Semver.Identifier.text)).map
      fun (x, y) => compareIdentifiers x y).find? (· ≠ .eq)).getD (compare is.length js.length) =
      @compare (List Semver.Identifier) LinearOrder.toOrd is js := by
  induction is generalizing js with
  | nil =>
    cases js with
    | nil => exact (compare_eq_iff_eq.mpr rfl).symm
    | cons j js => exact (compare_lt_iff_lt.mpr (Nat.zero_lt_succ _)).trans (compare_lt_iff_lt.mpr (List.nil_lt_cons j js)).symm
  | cons i is ih =>
    cases js with
    | nil => exact (compare_gt_iff_gt.mpr (Nat.zero_lt_succ _)).trans (compare_gt_iff_gt.mpr (List.nil_lt_cons i is)).symm
    | cons j js =>
      have later := ih js (fun k member => written k (List.mem_cons_of_mem _ member))
        fun k member => written' k (List.mem_cons_of_mem _ member)
      have lengths : compare (i :: is).length (j :: js).length = compare is.length js.length := by
        rw [List.length_cons, List.length_cons]
        rcases lt_trichotomy is.length js.length with less | same | more
        · rw [compare_lt_iff_lt.mpr less, compare_lt_iff_lt.mpr (by omega)]
        · rw [compare_eq_iff_eq.mpr same, compare_eq_iff_eq.mpr (by omega)]
        · rw [compare_gt_iff_gt.mpr more, compare_gt_iff_gt.mpr (by omega)]
      rw [compare_cons, ← later, lengths, List.map_cons, List.map_cons, List.zip_cons_cons, List.map_cons]
      dsimp only
      rw [compareIdentifiers_text (written i List.mem_cons_self) (written' j List.mem_cons_self)]
      cases compare i j with
      | lt => rfl
      | eq => rfl
      | gt => rfl

theorem isIdentifier_of_mem_texts {ks : List Semver.Identifier} (written : ∀ k ∈ ks, IsPrerelease k) :
    ∀ id ∈ ks.map Semver.Identifier.text, Semver.IsIdentifier isVersionLetter id := by
  intro id member
  obtain ⟨k, inside, rfl⟩ := List.mem_map.mp member
  exact (written k inside).isIdentifier

theorem comparePrerelease_dotted {is js : List Semver.Identifier} (written : ∀ i ∈ is, IsPrerelease i)
    (written' : ∀ j ∈ js, IsPrerelease j) (some : is ≠ []) (some' : js ≠ []) :
    comparePrerelease (dotted (is.map Semver.Identifier.text)) (dotted (js.map Semver.Identifier.text)) =
      @compare (List Semver.Identifier) LinearOrder.toOrd is js := by
  have loop := comparePrerelease_zip is js written written'
  unfold comparePrerelease
  rw [splitOn_dotted (isIdentifier_of_mem_texts written) (by simpa using some),
    splitOn_dotted (isIdentifier_of_mem_texts written') (by simpa using some')]
  simpa only [List.length_map] using loop

theorem compare_coe (is js : List Semver.Identifier) : compare (is : WithTop (List Semver.Identifier)) js =
    @compare (List Semver.Identifier) LinearOrder.toOrd is js := by
  rcases lt_trichotomy is js with less | rfl | more
  · rw [compare_lt_iff_lt.mpr less, compare_lt_iff_lt.mpr (WithTop.coe_lt_coe.mpr less)]
  · rw [compare_eq_iff_eq.mpr (rfl : is = is), compare_eq_iff_eq.mpr rfl]
  · rw [compare_gt_iff_gt.mpr more, compare_gt_iff_gt.mpr (WithTop.coe_lt_coe.mpr more)]

theorem cmpPrecedence_of {p q : Semver.Version} (wellFormed : p.WellFormed isVersionLetter)
    (wellFormed' : q.WellFormed isVersionLetter) : (Version.of p).cmpPrecedence (.of q) = p.precedence q := by
  have written {p : Semver.Version} (wellFormed : p.WellFormed isVersionLetter) : ∀ i ∈ p.prerelease, IsPrerelease i :=
    fun i member t same => wellFormed.prerelease t (same ▸ member)
  unfold Semver.Version.precedence
  change _ = (compare p.major q.major).then ((compare p.minor q.minor).then ((compare p.patch q.patch).then
    (compare (if p.prerelease = [] then ⊤ else (p.prerelease : WithTop (List Semver.Identifier)))
      (if q.prerelease = [] then ⊤ else (q.prerelease : WithTop (List Semver.Identifier))))))
  unfold cmpPrecedence
  refine congrArg _ (congrArg _ (congrArg _ ?_))
  simp only [Version.of, joined, List.map_eq_nil_iff]
  by_cases none : p.prerelease = []
  · by_cases none' : q.prerelease = []
    · rw [if_pos none, if_pos none', if_pos none, if_pos none']
      exact (compare_eq_iff_eq.mpr rfl).symm
    · rw [if_pos none, if_neg none', if_pos none, if_neg none']
      exact (compare_gt_iff_gt.mpr (WithTop.coe_lt_top _)).symm
  · by_cases none' : q.prerelease = []
    · rw [if_neg none, if_pos none', if_neg none, if_pos none']
      exact (compare_lt_iff_lt.mpr (WithTop.coe_lt_top _)).symm
    · rw [if_neg none, if_neg none', if_neg none, if_neg none', compare_coe]
      exact comparePrerelease_dotted (written wellFormed) (written wellFormed') none none'

def Parsed (v : Version) : Prop := ∃ raw, parse raw = .ok v

theorem parsed_iff {v : Version} : v.Parsed ↔ ∃ p, Accepted p ∧ v = .of p := by
  constructor
  · rintro ⟨raw, read⟩
    obtain ⟨p, accepted, -, rfl⟩ := parse_ok_iff.mp read
    exact ⟨p, accepted, rfl⟩
  · rintro ⟨p, accepted, rfl⟩
    exact ⟨p.text, parse_ok_iff.mpr ⟨p, accepted, rfl, rfl⟩⟩

structure SameUpToBuild (v w : Version) : Prop where
  major : v.major = w.major
  minor : v.minor = w.minor
  patch : v.patch = w.patch
  prerelease : v.prerelease = w.prerelease

structure TotalPreorder (u v w : Version) : Prop where
  refl : u.cmpPrecedence u = .eq
  swap : (u.cmpPrecedence v).swap = v.cmpPrecedence u
  antisymm : u.cmpPrecedence v = .eq ↔ SameUpToBuild u v
  trans : u.cmpPrecedence v ≠ .gt → v.cmpPrecedence w ≠ .gt → u.cmpPrecedence w ≠ .gt
  total : u.cmpPrecedence v ≠ .gt ∨ v.cmpPrecedence u ≠ .gt

theorem text_injective {i j : Semver.Identifier} (written : IsPrerelease i) (written' : IsPrerelease j)
    (same : i.text = j.text) : i = j := by
  have digits (n : Nat) : (number n).all Char.isDigit = true := List.all_eq_true.mpr fun _ => isDigit_of_mem_number
  cases i with
  | numeric m =>
    cases j with
    | numeric n =>
      have read := congrArg (Nat.ofDigitChars 10 · 0) (show number m = number n from same)
      simp only [number, Nat.ofDigitChars_ten_toDigits] at read
      rw [read]
    | alphanumeric u =>
      have digital := digits m
      rw [show number m = u from same, (written' u rfl).2] at digital
      cases digital
  | alphanumeric t =>
    cases j with
    | numeric n =>
      have digital := digits n
      rw [← show t = number n from same, (written t rfl).2] at digital
      cases digital
    | alphanumeric u => exact congrArg _ same

theorem joined_injective {is js : List Semver.Identifier} (written : ∀ i ∈ is, IsPrerelease i)
    (written' : ∀ j ∈ js, IsPrerelease j)
    (same : joined (is.map Semver.Identifier.text) = joined (js.map Semver.Identifier.text)) : is = js := by
  have texts : is.map Semver.Identifier.text = js.map Semver.Identifier.text := by
    unfold joined at same
    split_ifs at same with none none' none'
    · rw [none, none']
    · have split := congrArg (List.splitOn '.') (Option.some.inj same)
      rwa [splitOn_dotted (isIdentifier_of_mem_texts written) none,
        splitOn_dotted (isIdentifier_of_mem_texts written') none'] at split
  clear same
  induction is generalizing js with
  | nil => exact (List.map_eq_nil_iff.mp texts.symm).symm
  | cons i is ih =>
    cases js with
    | nil => cases texts
    | cons j js =>
      obtain ⟨head, tail⟩ := List.cons.inj texts
      rw [text_injective (written i List.mem_cons_self) (written' j List.mem_cons_self) head,
        ih (fun k member => written k (List.mem_cons_of_mem _ member))
          (fun k member => written' k (List.mem_cons_of_mem _ member)) tail]

theorem sameUpToBuild_of {p q : Semver.Version} (wellFormed : p.WellFormed isVersionLetter)
    (wellFormed' : q.WellFormed isVersionLetter) : SameUpToBuild (.of p) (.of q) ↔ p.precedence q = .eq := by
  unfold Semver.Version.precedence
  rw [compare_eq_iff_eq, Semver.Version.key_eq_iff]
  constructor
  · intro same
    exact ⟨same.major, same.minor, same.patch, joined_injective (fun i member t eq => wellFormed.prerelease t (eq ▸ member))
      (fun i member t eq => wellFormed'.prerelease t (eq ▸ member)) same.prerelease⟩
  · rintro ⟨major, minor, patch, prerelease⟩
    have texts : (of p).prerelease = (of q).prerelease := by rw [of, of, prerelease]
    exact ⟨major, minor, patch, texts⟩

/-- Exactly the texts of semantic versions are read whose numbers and length the program has room for; what is read is
compared by the precedence of semantic versions; and so it is ordered up to the builds. -/
theorem parse_conforms :
    (∀ raw v, parse raw = .ok v ↔ ∃ p : Semver.Version, p.WellFormed isVersionLetter ∧
      (p.major ≤ U32_MAX ∧ p.minor ≤ U32_MAX ∧ p.patch ≤ U32_MAX) ∧ byteLen raw ≤ MAX_VERSION_LEN ∧ p.text = raw ∧ v = .of p) ∧
    (∀ p q : Semver.Version, p.WellFormed isVersionLetter → q.WellFormed isVersionLetter →
      (Version.of p).cmpPrecedence (.of q) = p.precedence q) ∧
    ∀ u v w : Version, u.Parsed → v.Parsed → w.Parsed → TotalPreorder u v w := by
  refine ⟨fun raw v => parse_ok_iff.trans ?_, fun p q => cmpPrecedence_of, ?_⟩
  · constructor
    · rintro ⟨p, accepted, rfl, rfl⟩
      exact ⟨p, accepted.wellFormed, ⟨accepted.major, accepted.minor, accepted.patch⟩, accepted.short, rfl, rfl⟩
    · rintro ⟨p, wellFormed, ⟨major, minor, patch⟩, short, rfl, rfl⟩
      exact ⟨p, ⟨wellFormed, major, minor, patch, short⟩, rfl, rfl⟩
  · intro u v w parsedU parsedV parsedW
    obtain ⟨p, acceptedP, rfl⟩ := parsed_iff.mp parsedU
    obtain ⟨q, acceptedQ, rfl⟩ := parsed_iff.mp parsedV
    obtain ⟨r, acceptedR, rfl⟩ := parsed_iff.mp parsedW
    have pp := cmpPrecedence_of acceptedP.wellFormed acceptedP.wellFormed
    have pq := cmpPrecedence_of acceptedP.wellFormed acceptedQ.wellFormed
    have qp := cmpPrecedence_of acceptedQ.wellFormed acceptedP.wellFormed
    have qr := cmpPrecedence_of acceptedQ.wellFormed acceptedR.wellFormed
    have pr := cmpPrecedence_of acceptedP.wellFormed acceptedR.wellFormed
    have swap : (p.precedence q).swap = q.precedence p := p.precedence_swap q
    refine ⟨pp.trans p.precedence_self, ?_, ?_, ?_, ?_⟩
    · rw [pq, qp, swap]
    · rw [pq, sameUpToBuild_of acceptedP.wellFormed acceptedQ.wellFormed]
    · rw [pq, qr, pr]
      exact Semver.Version.precedence_trans
    · rw [pq, qp, ← swap]
      cases p.precedence q with
      | lt => exact .inl nofun
      | eq => exact .inl nofun
      | gt => exact .inr nofun

end Version

end Bitty.Package
