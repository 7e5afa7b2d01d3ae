import Bitty.Plugin.Event.Pipeline

/-! The constructors of payloads. -/

namespace Bitty.Plugin

open Text

/-- Whether a byte offset is the start of a character or the end of the text. -/
def isCharBoundary : Text → Nat → Bool
  | _, 0 => true
  | [], _ + 1 => false
  | c :: rest, index + 1 => c.utf8Size ≤ index + 1 && isCharBoundary rest (index + 1 - c.utf8Size)

def upTo : Nat → Text → Text
  | _, [] => []
  | limit, c :: rest => if c.utf8Size ≤ limit then c :: upTo (limit - c.utf8Size) rest else []

/-- `String::truncate`; it panics within a character. -/
def truncate (s : Text) (newLen : Nat) : Option Text :=
  if newLen ≤ byteLen s then
    if isCharBoundary s newLen then some (upTo newLen s) else none
  else some s

variable {s : Text}

theorem isCharBoundary_iff {n : Nat} : isCharBoundary s n = true ↔ ∃ t : Text, t <+: s ∧ byteLen t = n := by
  induction s generalizing n with
  | nil =>
    cases n with
    | zero => exact iff_of_true (by rw [isCharBoundary]) ⟨[], List.prefix_rfl, rfl⟩
    | succ n =>
      refine iff_of_false (by rw [isCharBoundary]; exact Bool.false_ne_true) ?_
      rintro ⟨t, front, long⟩
      rw [List.prefix_nil.mp front] at long
      exact absurd long (Nat.succ_ne_zero n).symm
  | cons c rest ih =>
    cases n with
    | zero => exact iff_of_true (by rw [isCharBoundary]) ⟨[], List.nil_prefix, rfl⟩
    | succ n =>
      rw [isCharBoundary, Bool.and_eq_true, decide_eq_true_eq, ih]
      constructor
      · rintro ⟨wide, t, front, long⟩
        refine ⟨c :: t, List.cons_prefix_cons.mpr ⟨rfl, front⟩, ?_⟩
        rw [byteLen_cons, long]
        omega
      · rintro ⟨t, front, long⟩
        cases t with
        | nil => exact absurd long (Nat.succ_ne_zero n).symm
        | cons d t =>
          obtain ⟨rfl, inner⟩ := List.cons_prefix_cons.mp front
          rw [byteLen_cons] at long
          exact ⟨by omega, t, inner, by omega⟩

theorem isCharBoundary_byteLen (s : Text) : isCharBoundary s (byteLen s) = true :=
  isCharBoundary_iff.mpr ⟨s, List.prefix_rfl, rfl⟩

/-- Characters are taken off the end until it is a boundary. -/
def popToBoundary (s : Text) : Text :=
  if isCharBoundary s (byteLen s) then s else popToBoundary s.dropLast
termination_by s.length
decreasing_by
  rename_i apart
  exact absurd (isCharBoundary_byteLen s) apart

theorem popToBoundary_eq (s : Text) : popToBoundary s = s := by rw [popToBoundary, if_pos (isCharBoundary_byteLen s)]

theorem upTo_front (limit : Nat) (s : Text) : upTo limit s <+: s := by
  induction s generalizing limit with
  | nil => exact List.prefix_rfl
  | cons c rest ih =>
    rw [upTo]
    split_ifs
    · exact List.cons_prefix_cons.mpr ⟨rfl, ih _⟩
    · exact List.nil_prefix

theorem byteLen_upTo_le (limit : Nat) (s : Text) : byteLen (upTo limit s) ≤ limit := by
  induction s generalizing limit with
  | nil => exact Nat.zero_le _
  | cons c rest ih =>
    rw [upTo]
    split_ifs with fits
    · have others := ih (limit - c.utf8Size)
      rw [byteLen_cons]
      omega
    · exact Nat.zero_le _

variable {limit : Nat} {t : Text}

theorem prefix_upTo (front : t <+: s) (short : byteLen t ≤ limit) : t <+: upTo limit s := by
  induction s generalizing limit t with
  | nil => exact front
  | cons c rest ih =>
    cases t with
    | nil => exact List.nil_prefix
    | cons d t =>
      obtain ⟨rfl, inner⟩ := List.cons_prefix_cons.mp front
      rw [byteLen_cons] at short
      rw [upTo, if_pos (by omega)]
      exact List.cons_prefix_cons.mpr ⟨rfl, ih inner (by omega)⟩

theorem upTo_of_short (short : byteLen s ≤ limit) : upTo limit s = s :=
  (upTo_front limit s).eq_of_length_le (prefix_upTo List.prefix_rfl short).length_le

theorem byteLen_le_of_prefix (front : t <+: s) : byteLen t ≤ byteLen s := by
  obtain ⟨rest, rfl⟩ := front
  rw [byteLen_append]
  exact Nat.le_add_right _ _

theorem byteLen_upTo_of_boundary (boundary : isCharBoundary s limit = true) : byteLen (upTo limit s) = limit := by
  obtain ⟨t, front, long⟩ := isCharBoundary_iff.mp boundary
  have within := byteLen_le_of_prefix (prefix_upTo front long.le)
  have most := byteLen_upTo_le limit s
  omega

theorem truncate_eq_some (long : limit < byteLen s) (cut : truncate s limit = some t) :
    isCharBoundary s limit = true ∧ upTo limit s = t := by
  rw [truncate, if_pos long.le] at cut
  split_ifs at cut with boundary
  exact ⟨boundary, Option.some.inj cut⟩

namespace BoundedText

def tryNew (s : Text) : Except PluginError BoundedText :=
  if short : byteLen s ≤ EVENT_MAX_BYTES then .ok ⟨s, short⟩
  else .error (.limitExceeded "event.payload".toList EVENT_MAX_BYTES (byteLen s))

def newTruncated (s : Text) : Option BoundedText :=
  if short : byteLen s ≤ EVENT_MAX_BYTES then some ⟨s, short⟩
  else
    match cut : truncate s EVENT_MAX_BYTES with
    | none => none
    | some t => some ⟨popToBoundary t, by
        obtain ⟨-, rfl⟩ := truncate_eq_some (Nat.lt_of_not_le short) cut
        rw [popToBoundary_eq]
        exact byteLen_upTo_le _ _⟩

end BoundedText

open BoundedText

namespace EventPayload

def tryText (s : Text) : Except PluginError EventPayload := (tryNew s).map .text

def textTruncated (s : Text) : Option EventPayload := (newTruncated s).map .text

def tryTitleChanged (s : Text) : Except PluginError EventPayload := (tryNew s).map .titleChanged

def titleChangedTruncated (s : Text) : Option EventPayload := (newTruncated s).map .titleChanged

def tryCwdChanged (s : Text) : Except PluginError EventPayload := (tryNew s).map .cwdChanged

def cwdChangedTruncated (s : Text) : Option EventPayload := (newTruncated s).map .cwdChanged

def tryInterception (action origin preview : Text) : Except PluginError EventPayload :=
  return .interception (← tryNew action) (← tryNew origin) (← tryNew preview)

def interceptionTruncated (action origin preview : Text) : Option EventPayload :=
  return .interception (← newTruncated action) (← newTruncated origin) (← newTruncated preview)

end EventPayload

inductive Construction
  | tryText (s : Text)
  | textTruncated (s : Text)
  | tryTitleChanged (s : Text)
  | titleChangedTruncated (s : Text)
  | tryCwdChanged (s : Text)
  | cwdChangedTruncated (s : Text)
  | tryInterception (action origin preview : Text)
  | interceptionTruncated (action origin preview : Text)

namespace Construction

/-- What a call returns, unless it panics. -/
def build : Construction → Option (Except PluginError EventPayload)
  | tryText s => some (EventPayload.tryText s)
  | textTruncated s => (EventPayload.textTruncated s).map .ok
  | tryTitleChanged s => some (EventPayload.tryTitleChanged s)
  | titleChangedTruncated s => (EventPayload.titleChangedTruncated s).map .ok
  | tryCwdChanged s => some (EventPayload.tryCwdChanged s)
  | cwdChangedTruncated s => (EventPayload.cwdChangedTruncated s).map .ok
  | tryInterception action origin preview => some (EventPayload.tryInterception action origin preview)
  | interceptionTruncated action origin preview => (EventPayload.interceptionTruncated action origin preview).map .ok

def truncating : Construction → List Text
  | textTruncated s | titleChangedTruncated s | cwdChangedTruncated s => [s]
  | interceptionTruncated action origin preview => [action, origin, preview]
  | _ => []

end Construction

/-- The longest beginning of a text within the bound that ends with a character. -/
structure LongestPrefix (s t : Text) : Prop where
  front : t <+: s
  bounded : byteLen t ≤ EVENT_MAX_BYTES
  longest : ∀ u : Text, u <+: s → byteLen u ≤ EVENT_MAX_BYTES → u <+: t

def EventQueue.accepted (q : EventQueue) (event : Event) : EventQueue :=
  if q.coalesces event then q.cleared.enqueue event else q.enqueue event

structure Construction.Sound (call : Construction) : Prop where
  cut : ∀ s ∈ call.truncating, ∃ t, newTruncated s = some t ∧ LongestPrefix s t.val
  kept : ∀ payload, call.build = some (.ok payload) → payload.bytes ≤ EVENT_MAX_BYTES ∧
    ∀ (q : EventQueue) (event : Event), event.payload = payload → q.push event = q.accepted event

def Cut (s : Text) : Prop := byteLen s ≤ EVENT_MAX_BYTES ∨ isCharBoundary s EVENT_MAX_BYTES = true

def Construction.Fit : Construction → Prop
  | textTruncated s | titleChangedTruncated s | cwdChangedTruncated s => Cut s
  | tryInterception action origin preview =>
    byteLen action ≤ EVENT_MAX_BYTES → byteLen origin ≤ EVENT_MAX_BYTES → byteLen preview ≤ EVENT_MAX_BYTES →
      byteLen action + byteLen origin + byteLen preview ≤ EVENT_MAX_BYTES
  | interceptionTruncated action origin preview =>
    (Cut action ∧ Cut origin ∧ Cut preview) ∧
      min (byteLen action) EVENT_MAX_BYTES + min (byteLen origin) EVENT_MAX_BYTES +
        min (byteLen preview) EVENT_MAX_BYTES ≤ EVENT_MAX_BYTES
  | _ => True

theorem longestPrefix_upTo (s : Text) : LongestPrefix s (upTo EVENT_MAX_BYTES s) where
  front := upTo_front _ _
  bounded := byteLen_upTo_le _ _
  longest _ front short := prefix_upTo front short

def fitted (s : Text) : BoundedText := ⟨upTo EVENT_MAX_BYTES s, byteLen_upTo_le _ _⟩

theorem newTruncated_of_cut (cut : Cut s) : newTruncated s = some (fitted s) := by
  unfold newTruncated
  split_ifs with short
  · exact congrArg some (Subtype.ext (upTo_of_short short).symm)
  · have boundary := cut.resolve_left short
    have done : truncate s EVENT_MAX_BYTES = some (upTo EVENT_MAX_BYTES s) := by
      rw [truncate, if_pos (Nat.lt_of_not_le short).le, if_pos boundary]
    split
    · rename_i failed
      rw [done] at failed
      cases failed
    · rename_i t found
      rw [done] at found
      cases found
      exact congrArg some (Subtype.ext (popToBoundary_eq _))

theorem newTruncated_eq_none (apart : ¬Cut s) : newTruncated s = none := by
  unfold newTruncated
  have long : ¬byteLen s ≤ EVENT_MAX_BYTES := fun short => apart (.inl short)
  rw [dif_neg long]
  split
  · rfl
  · rename_i t found
    exact absurd (.inr (truncate_eq_some (Nat.lt_of_not_le long) found).1) apart

theorem newTruncated_iff : (∃ t, newTruncated s = some t ∧ LongestPrefix s t.val) ↔ Cut s := by
  constructor
  · rintro ⟨t, done, -⟩
    by_contra apart
    rw [newTruncated_eq_none apart] at done
    cases done
  · exact fun cut => ⟨fitted s, newTruncated_of_cut cut, longestPrefix_upTo s⟩

theorem byteLen_fitted (cut : Cut s) : byteLen (fitted s).val = min (byteLen s) EVENT_MAX_BYTES := by
  by_cases short : byteLen s ≤ EVENT_MAX_BYTES
  · rw [Nat.min_eq_left short]
    exact congrArg byteLen (upTo_of_short short)
  · rw [Nat.min_eq_right (Nat.lt_of_not_le short).le]
    exact byteLen_upTo_of_boundary (cut.resolve_left short)

theorem push_of_bounded {payload : EventPayload} (bounded : payload.bytes ≤ EVENT_MAX_BYTES) (q : EventQueue) (event : Event)
    (same : event.payload = payload) : q.push event = q.accepted event := by
  subst same
  exact if_pos (decide_eq_true bounded)

namespace Construction

theorem sound_iff {call : Construction} : call.Sound ↔
    (∀ s ∈ call.truncating, Cut s) ∧ ∀ payload, call.build = some (.ok payload) → payload.bytes ≤ EVENT_MAX_BYTES := by
  constructor
  · intro sound
    exact ⟨fun s member => newTruncated_iff.mp (sound.cut s member), fun payload built => (sound.kept payload built).1⟩
  · rintro ⟨cut, bounded⟩
    refine ⟨fun s member => newTruncated_iff.mpr (cut s member), fun payload built => ?_⟩
    exact ⟨bounded payload built, push_of_bounded (bounded payload built)⟩

variable {wrap : BoundedText → EventPayload} {s : Text} {payload : EventPayload}

theorem bytes_of_try (single : ∀ t, (wrap t).bytes = byteLen t.val)
    (built : some ((tryNew s).map wrap) = some (Except.ok payload)) : payload.bytes ≤ EVENT_MAX_BYTES := by
  cases tried : tryNew s with
  | error e =>
    rw [tried] at built
    cases built
  | ok t =>
    rw [tried] at built
    cases built
    exact (single t).le.trans t.property

theorem bytes_of_truncated (single : ∀ t, (wrap t).bytes = byteLen t.val)
    (built : ((newTruncated s).map wrap).map (.ok : EventPayload → Except PluginError EventPayload) = some (.ok payload)) :
    payload.bytes ≤ EVENT_MAX_BYTES := by
  cases cut : newTruncated s with
  | none =>
    rw [cut] at built
    cases built
  | some t =>
    rw [cut] at built
    cases built
    exact (single t).le.trans t.property

theorem tryInterception_iff {action origin preview : Text} :
    (∀ payload, (tryInterception action origin preview).build = some (.ok payload) → payload.bytes ≤ EVENT_MAX_BYTES) ↔
      (tryInterception action origin preview).Fit := by
  have built {a o p : BoundedText} (first : tryNew action = .ok a) (second : tryNew origin = .ok o)
      (third : tryNew preview = .ok p) :
      (tryInterception action origin preview).build = some (.ok (.interception a o p)) := by
    rw [build, EventPayload.tryInterception, first, second, third]
    rfl
  have short {s : Text} (fits : byteLen s ≤ EVENT_MAX_BYTES) : tryNew s = .ok ⟨s, fits⟩ := dif_pos fits
  constructor
  · exact fun bounded first second third => bounded _ (built (short first) (short second) (short third))
  · intro fit payload done
    have beyond {s : Text} (long : ¬byteLen s ≤ EVENT_MAX_BYTES) : ∃ e, tryNew s = .error e := ⟨_, dif_neg long⟩
    rw [build, EventPayload.tryInterception] at done
    by_cases first : byteLen action ≤ EVENT_MAX_BYTES
    · by_cases second : byteLen origin ≤ EVENT_MAX_BYTES
      · by_cases third : byteLen preview ≤ EVENT_MAX_BYTES
        · rw [short first, short second, short third] at done
          cases done
          exact fit first second third
        · obtain ⟨e, refused⟩ := beyond third
          rw [short first, short second, refused] at done
          cases done
      · obtain ⟨e, refused⟩ := beyond second
        rw [short first, refused] at done
        cases done
    · obtain ⟨e, refused⟩ := beyond first
      rw [refused] at done
      cases done

theorem interceptionTruncated_iff {action origin preview : Text} (cut : Cut action ∧ Cut origin ∧ Cut preview) :
    (∀ payload, (interceptionTruncated action origin preview).build = some (.ok payload) →
      payload.bytes ≤ EVENT_MAX_BYTES) ↔ (interceptionTruncated action origin preview).Fit := by
  obtain ⟨first, second, third⟩ := cut
  have built : (interceptionTruncated action origin preview).build =
      some (.ok (.interception (fitted action) (fitted origin) (fitted preview))) := by
    rw [build, EventPayload.interceptionTruncated, newTruncated_of_cut first, newTruncated_of_cut second,
      newTruncated_of_cut third]
    rfl
  have size : (EventPayload.interception (fitted action) (fitted origin) (fitted preview)).bytes =
      min (byteLen action) EVENT_MAX_BYTES + min (byteLen origin) EVENT_MAX_BYTES +
        min (byteLen preview) EVENT_MAX_BYTES := by
    rw [EventPayload.bytes, byteLen_fitted first, byteLen_fitted second, byteLen_fitted third]
  rw [built]
  constructor
  · intro bounded
    refine ⟨⟨first, second, third⟩, ?_⟩
    rw [← size]
    exact bounded _ rfl
  · rintro ⟨-, fits⟩ payload done
    cases done
    rw [size]
    exact fits

/-- A constructor keeps to the bound unless it cuts a character or builds an interception that is too long in all. -/
theorem sound_iff_fit (call : Construction) : call.Sound ↔ call.Fit := by
  rw [sound_iff]
  cases call with
  | tryText s => exact iff_of_true ⟨List.forall_mem_nil _, fun _ => bytes_of_try fun _ => rfl⟩ trivial
  | tryTitleChanged s => exact iff_of_true ⟨List.forall_mem_nil _, fun _ => bytes_of_try fun _ => rfl⟩ trivial
  | tryCwdChanged s => exact iff_of_true ⟨List.forall_mem_nil _, fun _ => bytes_of_try fun _ => rfl⟩ trivial
  | textTruncated s =>
    exact (and_iff_left fun _ => bytes_of_truncated fun _ => rfl).trans List.forall_mem_singleton
  | titleChangedTruncated s =>
    exact (and_iff_left fun _ => bytes_of_truncated fun _ => rfl).trans List.forall_mem_singleton
  | cwdChangedTruncated s =>
    exact (and_iff_left fun _ => bytes_of_truncated fun _ => rfl).trans List.forall_mem_singleton
  | tryInterception action origin preview => exact (and_iff_right (List.forall_mem_nil _)).trans tryInterception_iff
  | interceptionTruncated action origin preview =>
    have three : (∀ s ∈ [action, origin, preview], Cut s) ↔ Cut action ∧ Cut origin ∧ Cut preview := by
      simp
    constructor
    · rintro ⟨cut, bounded⟩
      exact (interceptionTruncated_iff (three.mp cut)).mp bounded
    · exact fun fit => ⟨three.mpr fit.1, (interceptionTruncated_iff fit.1).mpr fit⟩

theorem byteLen_replicate (n : Nat) (c : Char) : byteLen (List.replicate n c) = n * c.utf8Size := by
  induction n with
  | zero => exact (Nat.zero_mul _).symm
  | succ n ih =>
    rw [List.replicate_succ, byteLen_cons, ih, Nat.succ_mul, Nat.add_comm]

/-- A text of characters of three bytes panics, and an interception of three texts of half the bound is discarded. -/
theorem sound_wide : newTruncated (List.replicate 2731 '語') = none ∧
    ∃ (a : BoundedText) (payload : EventPayload), (tryInterception a.val a.val a.val).build = some (.ok payload) ∧
      EVENT_MAX_BYTES < payload.bytes ∧ ∀ (q : EventQueue) (event : Event), event.payload = payload → q.push event = q.drop := by
  constructor
  · refine newTruncated_eq_none ?_
    rintro (short | boundary)
    · rw [byteLen_replicate] at short
      exact absurd short (by decide)
    · obtain ⟨t, front, long⟩ := isCharBoundary_iff.mp boundary
      rw [(List.prefix_replicate_iff.mp front).2, byteLen_replicate] at long
      have three : Char.utf8Size '語' = 3 := by decide
      rw [three, EVENT_MAX_BYTES] at long
      omega
  · have half : byteLen (List.replicate 4096 'a') = 4096 := byteLen_replicate 4096 'a'
    have fits : byteLen (List.replicate 4096 'a') ≤ EVENT_MAX_BYTES := by
      rw [half]
      decide
    have large : EVENT_MAX_BYTES < (EventPayload.interception ⟨_, fits⟩ ⟨_, fits⟩ ⟨_, fits⟩).bytes := by
      rw [EventPayload.bytes, half]
      decide
    have short : tryNew (List.replicate 4096 'a') = .ok ⟨_, fits⟩ := dif_pos fits
    refine ⟨⟨_, fits⟩, .interception ⟨_, fits⟩ ⟨_, fits⟩ ⟨_, fits⟩, ?_, large, fun q event same => ?_⟩
    · rw [build, EventPayload.tryInterception, short]
      rfl
    · have unbounded : event.payload.isBounded = false := by
        rw [same]
        exact decide_eq_false (Nat.not_le.mpr large)
      rw [EventQueue.push, unbounded, if_neg Bool.false_ne_true]

end Construction

end Bitty.Plugin
