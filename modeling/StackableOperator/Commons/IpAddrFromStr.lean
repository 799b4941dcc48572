import Mathlib
import StackableOperator.Commons.Networking
import StackableOperator.RustStd.ParseUnsigned
import StackableOperator.Readers.ReadNumber

/-!
# Reading IP addresses

The parser of Rust's standard library. An IPv4 address has a unique text (`readOctets_iff`). An IPv6
address may be written in many ways; what `display` writes is read back (`fromStr_display`).
-/

namespace StackableOperator

section Parser

variable {T : Type}

/-- Read a value behind a separator, which the first value does not have. -/
def readSeparator (sep : Char) (index : ℕ) (inner : List Char → Option (T × List Char))
    (s : List Char) : Option (T × List Char) :=
  if 0 < index then
    match s with
    | [] => none
    | c :: rest => if c = sep then inner rest else none
  else inner s

def readOctet (s : List Char) : Option (UInt8 × List Char) :=
  (readNumber 10 3 false 256 s).map fun (n, rest) => (n.toUInt8, rest)

/-- Read some more octets, the next of which has an index. -/
def readOctets : (more index : ℕ) → List Char → Option (List UInt8 × List Char)
  | 0, _, s => some ([], s)
  | more + 1, index, s => do
    let (octet, rest) ← readSeparator '.' index readOctet s
    let (octets, rest) ← readOctets more (index + 1) rest
    return (octet :: octets, rest)

def readIpv4Addr (s : List Char) : Option (List UInt8 × List Char) := readOctets 4 0 s

def readGroup (s : List Char) : Option (UInt16 × List Char) :=
  (readNumber 16 4 true 65536 s).map fun (n, rest) => (n.toUInt16, rest)

/-- The segments of octets in big-endian order. -/
def segmentsOfOctets : List UInt8 → List UInt16
  | hi :: lo :: octets => (hi.toNat * 256 + lo.toNat).toUInt16 :: segmentsOfOctets octets
  | _ => []

/-- Read at most some more groups, the next of which has an index: the groups, whether they end with
an IPv4 address, and the rest. An IPv4 address needs at least two groups. -/
def readGroups : (more index : ℕ) → List Char → List UInt16 × Bool × List Char
  | 0, _, s => ([], false, s)
  | more + 1, index, s =>
    match if 0 < more then readSeparator ':' index readIpv4Addr s else none with
    | some (octets, rest) => (segmentsOfOctets octets, true, rest)
    | none =>
      match readSeparator ':' index readGroup s with
      | some (group, rest) =>
        let (groups, ipv4, rest) := readGroups more (index + 1) rest
        (group :: groups, ipv4, rest)
      | none => ([], false, s)

/-- The segments of an IPv6 address. An IPv4 address is not allowed before `::`. -/
def readIpv6Addr (s : List Char) : Option (List UInt16 × List Char) :=
  let (head, headIpv4, rest) := readGroups 8 0 s
  if head.length = 8 then some (head, rest)
  else if headIpv4 then none
  else
    match rest with
    | ':' :: ':' :: rest =>
      let (tail, _, rest) := readGroups (8 - (head.length + 1)) 0 rest
      some (head ++ List.replicate (8 - head.length - tail.length) 0 ++ tail, rest)
    | _ => none

end Parser

/-- `IpAddr::from_str`. What comes first is an IPv4 address if it can be read as one. -/
def IpAddr.fromStr (s : String) : Option IpAddr :=
  match readIpv4Addr s.toList with
  | some (octets, []) => if h : octets.length = 4 then some (.v4 ⟨octets, h⟩) else none
  | some _ => none
  | none =>
    match readIpv6Addr s.toList with
    | some (segments, []) => if h : segments.length = 8 then some (.v6 ⟨segments, h⟩) else none
    | _ => none

example : IpAddr.fromStr "::ffff:192.0.2.128" =
    some (.v6 ⟨[0, 0, 0, 0, 0, 0xffff, 0xc000, 0x0280], rfl⟩) := by decide

/-! ### IPv4 addresses -/

/-- Numbers behind a separator, which the first number does not have. -/
def numbersText (sep : Char) (radix : ℕ) : ℕ → List ℕ → List Char
  | _, [] => []
  | index, n :: ns =>
    (if 0 < index then [sep] else []) ++ Nat.toDigits radix n ++
      numbersText sep radix (index + 1) ns

theorem numbersText_eq_intercalate (sep : Char) (radix : ℕ) (ns : List ℕ) :
    numbersText sep radix 0 ns = [sep].intercalate (ns.map (Nat.toDigits radix)) := by
  have hcons : ∀ (ns : List ℕ) (n index : ℕ),
      Nat.toDigits radix n ++ numbersText sep radix (index + 1) ns =
        [sep].intercalate ((n :: ns).map (Nat.toDigits radix)) := by
    intro ns
    induction ns with
    | nil =>
      intro n index
      simp [numbersText]
    | cons n' ns ih =>
      intro n index
      have htail := ih n' (index + 1)
      rw [List.map_cons] at htail
      rw [numbersText, if_pos (Nat.succ_pos index), List.append_assoc, htail, List.map_cons,
        List.map_cons, List.intercalate_cons_cons, List.append_assoc]
  cases ns with
  | nil => rfl
  | cons n ns => exact hcons ns n 0

theorem displayOctets_eq_numbersText (octets : List UInt8) :
    displayOctets octets = numbersText '.' 10 0 (octets.map UInt8.toNat) := by
  rw [displayOctets, numbersText_eq_intercalate, List.map_map]
  refine congrArg _ (List.map_congr_left fun octet _ => ?_)
  rw [Nat.toString_eq_repr, Nat.toList_repr]
  rfl

theorem readOctet_eq_some_iff {s rest : List Char} {octet : UInt8} :
    readOctet s = some (octet, rest) ↔
      s = Nat.toDigits 10 octet.toNat ++ rest ∧ EndsDigits 10 rest := by
  rw [readOctet, Option.map_eq_some_iff]
  constructor
  · rintro ⟨⟨n, rest'⟩, hread, heq⟩
    obtain ⟨rfl, rfl⟩ := Prod.mk.inj heq
    obtain ⟨digits, rfl, hne, hdigits, hrest, rfl, hbound, hzero⟩ := readNumber_eq_some hread
    have hnat : (digitsValue 10 0 digits).toUInt8.toNat = digitsValue 10 0 digits :=
      Nat.mod_eq_of_lt hbound
    rw [hnat, toDigits_digitsValue hne hdigits (hzero rfl)]
    exact ⟨rfl, hrest⟩
  · rintro ⟨rfl, hrest⟩
    have hlt := octet.toNat_lt
    refine ⟨(octet.toNat, rest), ?_, by simp⟩
    exact readNumber_toDigits (by decide) (by decide) (by decide) (by omega) (by omega) hrest

/-- What is read behind a separator. -/
theorem readSeparator_eq_some_iff {T : Type} {sep : Char} {index : ℕ}
    {inner : List Char → Option (T × List Char)} {s : List Char} {r : T × List Char} :
    readSeparator sep index inner s = some r ↔
      ∃ rest, s = (if 0 < index then [sep] else []) ++ rest ∧ inner rest = some r := by
  unfold readSeparator
  split_ifs with hindex
  · cases s with
    | nil => simp
    | cons c rest =>
      dsimp only
      split_ifs with hc
      · simp [hc]
      · simp [hc]
  · simp

theorem toDigit_dot : toDigit 10 '.' = none := by decide

theorem endsDigits_numbersText_append {sep : Char} {radix index : ℕ} {ns : List ℕ}
    {rest : List Char} (hsep : toDigit radix sep = none) (hindex : 0 < index)
    (hrest : EndsDigits radix rest) :
    EndsDigits radix (numbersText sep radix index ns ++ rest) := by
  cases ns with
  | nil => exact hrest
  | cons n ns =>
    intro c hc
    rw [numbersText, if_pos hindex] at hc
    obtain rfl : sep = c := by simpa using hc
    exact hsep

/-- **Octets are read iff they are written in their usual text.** -/
theorem readOctets_iff {more index : ℕ} {s rest : List Char} {octets : List UInt8}
    (hmore : 0 < more) :
    readOctets more index s = some (octets, rest) ↔
      octets.length = more ∧ EndsDigits 10 rest ∧
        s = numbersText '.' 10 index (octets.map UInt8.toNat) ++ rest := by
  induction more generalizing index s octets with
  | zero => exact absurd hmore (Nat.lt_irrefl 0)
  | succ more ih =>
    rw [readOctets, Option.bind_eq_bind, Option.bind_eq_some_iff]
    constructor
    · rintro ⟨⟨octet, s₁⟩, hread, h⟩
      obtain ⟨s₂, rfl, hoctet⟩ := readSeparator_eq_some_iff.mp hread
      obtain ⟨rfl, hends⟩ := readOctet_eq_some_iff.mp hoctet
      obtain ⟨⟨octets', rest'⟩, hoctets, heq⟩ := Option.bind_eq_some_iff.mp h
      obtain ⟨rfl, rfl⟩ := Prod.mk.inj (Option.some.inj heq)
      -- the last octet ends the text
      cases more with
      | zero =>
        obtain ⟨rfl, rfl⟩ := Prod.mk.inj (Option.some.inj hoctets)
        exact ⟨rfl, hends, by simp [numbersText]⟩
      | succ more =>
        obtain ⟨hlength, hrest, rfl⟩ := (ih (Nat.succ_pos more)).mp hoctets
        exact ⟨by simp [hlength], hrest, by simp [numbersText]⟩
    · rintro ⟨hlength, hrest, rfl⟩
      cases octets with
      | nil => cases hlength
      | cons octet octets =>
        have hlength : octets.length = more := Nat.succ.inj hlength
        have hends : EndsDigits 10
            (numbersText '.' 10 (index + 1) (octets.map UInt8.toNat) ++ rest) :=
          endsDigits_numbersText_append toDigit_dot (Nat.succ_pos index) hrest
        refine ⟨(octet, numbersText '.' 10 (index + 1) (octets.map UInt8.toNat) ++ rest),
          readSeparator_eq_some_iff.mpr ⟨_, by simp [numbersText],
            readOctet_eq_some_iff.mpr ⟨rfl, hends⟩⟩, ?_⟩
        dsimp only
        cases more with
        | zero =>
          obtain rfl := List.eq_nil_of_length_eq_zero hlength
          rfl
        | succ more =>
          rw [(ih (Nat.succ_pos more)).mpr ⟨hlength, hrest, rfl⟩]
          rfl

theorem readIpv4Addr_iff {s rest : List Char} {octets : List UInt8} :
    readIpv4Addr s = some (octets, rest) ↔
      octets.length = 4 ∧ EndsDigits 10 rest ∧ s = displayOctets octets ++ rest := by
  rw [readIpv4Addr, readOctets_iff (by decide), displayOctets_eq_numbersText]

/-! ### IPv6 addresses -/

namespace Ipv6Addr

theorem fmtSubslice_eq_numbersText (chunk : List UInt16) :
    fmtSubslice chunk = numbersText ':' 16 0 (chunk.map UInt16.toNat) := by
  rw [fmtSubslice, numbersText_eq_intercalate, List.map_map]
  rfl

/-- What may follow a list of groups. -/
def EndsGroups (rest : List Char) : Prop := rest = [] ∨ ∃ rest', rest = ':' :: ':' :: rest'

theorem EndsGroups.endsDigits {rest : List Char} (h : EndsGroups rest) : EndsDigits 16 rest := by
  rcases h with rfl | ⟨rest', rfl⟩
  · simp [EndsDigits]
  · intro c hc
    obtain rfl : ':' = c := by simpa using hc
    decide

/-- The text behind a group ends or goes on with a colon. -/
theorem eq_nil_or_cons_of_groups {index : ℕ} {ns : List ℕ} {rest : List Char}
    (h : EndsGroups rest) :
    numbersText ':' 16 (index + 1) ns ++ rest = [] ∨
      ∃ rest', numbersText ':' 16 (index + 1) ns ++ rest = ':' :: rest' := by
  cases ns with
  | nil =>
    rcases h with rfl | ⟨rest', rfl⟩
    · exact .inl rfl
    · exact .inr ⟨_, rfl⟩
  | cons n ns => exact .inr ⟨_, by rw [numbersText, if_pos (Nat.succ_pos index)]; rfl⟩

theorem readGroup_toDigits (group : UInt16) {rest : List Char} (hrest : EndsDigits 16 rest) :
    readGroup (Nat.toDigits 16 group.toNat ++ rest) = some (group, rest) := by
  have hlt := group.toNat_lt
  rw [readGroup, readNumber_toDigits (by decide) (by decide) (by decide) (by omega) (by omega)
    hrest]
  simp

theorem isSome_toDigit_sixteen {c : Char} (h : (toDigit 10 c).isSome) :
    (toDigit 16 c).isSome := by
  obtain ⟨d, hd⟩ := Option.isSome_iff_exists.mp h
  obtain ⟨hlt, rfl⟩ := digitChar_of_toDigit_ten hd
  rw [toDigit_digitChar (by decide) (by omega)]
  rfl

/-- A group is not the beginning of an IPv4 address, which has a dot behind its first octet. -/
theorem readIpv4Addr_group {n : ℕ} {t : List Char} (ht : t = [] ∨ ∃ t', t = ':' :: t') :
    readIpv4Addr (Nat.toDigits 16 n ++ t) = none := by
  refine Option.eq_none_iff_forall_ne_some.mpr fun ⟨octets, rest⟩ hread => ?_
  obtain ⟨hlength, -, htext⟩ := readIpv4Addr_iff.mp hread
  obtain ⟨a, b, octets, rfl⟩ : ∃ a b octets', octets = a :: b :: octets' := by
    match octets with
    | a :: b :: octets => exact ⟨a, b, octets, rfl⟩
    | [_] => simp at hlength
    | [] => simp at hlength
  rw [displayOctets_eq_numbersText] at htext
  simp only [List.map_cons, numbersText, Nat.lt_irrefl, if_false, List.nil_append, Nat.zero_add,
    Nat.zero_lt_one, if_true, List.append_assoc, List.cons_append] at htext
  -- both texts begin with the same hexadecimal digits
  have hgroup : (Nat.toDigits 16 n ++ t).takeWhile (fun c => (toDigit 16 c).isSome) =
      Nat.toDigits 16 n := by
    refine takeWhile_append_of_head? (toDigits_spec (by decide) (by decide) n).1 ?_
    rcases ht with rfl | ⟨t', rfl⟩
    · simp
    · intro c hc
      obtain rfl : ':' = c := by simpa using hc
      decide
  rw [htext, takeWhile_append_of_head?
    (fun c hc => isSome_toDigit_sixteen ((toDigits_spec (by decide) (by decide) _).1 c hc))
    (fun c hc => by
      obtain rfl : '.' = c := by simpa using hc
      decide)] at hgroup
  rw [hgroup] at htext
  have htail := List.append_cancel_left htext
  rcases ht with rfl | ⟨t', rfl⟩
  · cases htail
  · exact absurd (List.cons.inj htail).1 (by decide)

theorem readSeparator_append {T : Type} (sep : Char) (index : ℕ)
    (inner : List Char → Option (T × List Char)) (s : List Char) :
    readSeparator sep index inner ((if 0 < index then [sep] else []) ++ s) = inner s := by
  unfold readSeparator
  split_ifs <;> simp

/-- No group is read where the groups end. -/
theorem readSeparator_of_endsGroups {T : Type} {inner : List Char → Option (T × List Char)}
    {index : ℕ} {rest : List Char} (hnil : inner [] = none) (hcolon : ∀ s, inner (':' :: s) = none)
    (h : EndsGroups rest) : readSeparator ':' index inner rest = none := by
  unfold readSeparator
  rcases h with rfl | ⟨rest', rfl⟩
  · split_ifs
    · rfl
    · exact hnil
  · split_ifs
    · exact hcolon rest'
    · exact hcolon (':' :: rest')

/-- **Groups are read back**, up to the end of the text or to `::`. -/
theorem readGroups_numbersText {groups : List UInt16} {more index : ℕ} {rest : List Char}
    (hlength : groups.length ≤ more) (hrest : EndsGroups rest) :
    readGroups more index (numbersText ':' 16 index (groups.map UInt16.toNat) ++ rest) =
      (groups, false, rest) := by
  induction groups generalizing more index with
  | nil =>
    cases more with
    | zero => rfl
    | succ more =>
      have hipv4 : readSeparator ':' index readIpv4Addr rest = none :=
        readSeparator_of_endsGroups rfl (fun _ => rfl) hrest
      have hgroup : readSeparator ':' index readGroup rest = none :=
        readSeparator_of_endsGroups rfl (fun _ => rfl) hrest
      rw [List.map_nil, numbersText, List.nil_append, readGroups, hipv4, ite_self]
      dsimp only
      rw [hgroup]
  | cons group groups ih =>
    cases more with
    | zero => cases hlength
    | succ more =>
      have hnext : readGroups more (index + 1)
          (numbersText ':' 16 (index + 1) (groups.map UInt16.toNat) ++ rest) =
            (groups, false, rest) := ih (Nat.le_of_succ_le_succ hlength)
      have hends : EndsDigits 16
          (numbersText ':' 16 (index + 1) (groups.map UInt16.toNat) ++ rest) :=
        endsDigits_numbersText_append (by decide) (Nat.succ_pos index) hrest.endsDigits
      rw [List.map_cons, numbersText, List.append_assoc, List.append_assoc, readGroups,
        readSeparator_append, readIpv4Addr_group (eq_nil_or_cons_of_groups hrest), ite_self]
      dsimp only
      rw [readSeparator_append, readGroup_toDigits group hends]
      dsimp only
      rw [hnext]

/-- A list of groups is not an IPv4 address. -/
theorem readIpv4Addr_numbersText {ns : List ℕ} {rest : List Char} (hrest : EndsGroups rest) :
    readIpv4Addr (numbersText ':' 16 0 ns ++ rest) = none := by
  cases ns with
  | nil =>
    rcases hrest with rfl | ⟨rest', rfl⟩
    · rfl
    · rfl
  | cons n ns =>
    rw [numbersText, if_neg (Nat.lt_irrefl 0), List.nil_append, List.append_assoc]
    exact readIpv4Addr_group (eq_nil_or_cons_of_groups hrest)

/-! ### Runs of zeros -/

/-- A span of zeros. -/
structure IsRun (segments : List UInt16) (span : Span) : Prop where
  le_length : span.start + span.len ≤ segments.length
  eq_zero : ∀ i, span.start ≤ i → i < span.start + span.len → segments[i]? = some 0

theorem IsRun.concat {segments : List UInt16} {span : Span} (h : IsRun segments span)
    (segment : UInt16) : IsRun (segments ++ [segment]) span := by
  refine ⟨by rw [List.length_append]; exact h.le_length.trans (Nat.le_add_right _ _),
    fun i hi hlt => ?_⟩
  rw [List.getElem?_append_left (hlt.trans_le h.le_length)]
  exact h.eq_zero i hi hlt

/-- The run that ends at the last segment so far. -/
def IsCurrent (segments : List UInt16) (span : Span) : Prop :=
  IsRun segments span ∧ (span.len = 0 ∨ span.start + span.len = segments.length)

/-- The run goes on with one more zero, or begins with it. -/
theorem isCurrent_step {segments : List UInt16} {span : Span} (h : IsCurrent segments span) :
    IsCurrent (segments ++ [0])
      { start := if span.len = 0 then segments.length else span.start, len := span.len + 1 } := by
  obtain ⟨hrun, hend⟩ := h
  have hstart : (if span.len = 0 then segments.length else span.start) + span.len =
      segments.length := by
    split_ifs with hlen
    · rw [hlen]
      rfl
    · exact hend.resolve_left hlen
  have hold : span.len = 0 ∨
      (if span.len = 0 then segments.length else span.start) = span.start := by
    by_cases hlen : span.len = 0
    · exact .inl hlen
    · exact .inr (if_neg hlen)
  generalize (if span.len = 0 then segments.length else span.start) = start at hstart hold ⊢
  have hlength : (segments ++ [0]).length = segments.length + 1 := List.length_append
  refine ⟨⟨?_, fun i hi hlt => ?_⟩, .inr ?_⟩
  · rw [hlength]
    dsimp only
    omega
  · dsimp only at hi hlt
    rcases Nat.lt_or_ge i segments.length with hlow | hhigh
    · rw [List.getElem?_append_left hlow]
      exact hrun.eq_zero i (by omega) (by omega)
    · obtain rfl : i = segments.length := by omega
      simp
  · rw [hlength]
    dsimp only
    omega

/-- One more segment keeps both spans. -/
theorem zeroesStep_spec {segments : List UInt16} {spans : Span × Span} (segment : UInt16)
    (hlongest : IsRun segments spans.1) (hcurrent : IsCurrent segments spans.2) :
    IsRun (segments ++ [segment]) (zeroesStep spans (segment, segments.length)).1 ∧
      IsCurrent (segments ++ [segment]) (zeroesStep spans (segment, segments.length)).2 := by
  by_cases hzero : segment = 0
  · subst hzero
    have hstep := isCurrent_step hcurrent
    rw [zeroesStep, if_pos (rfl : (0 : UInt16) = 0)]
    dsimp only
    refine ⟨?_, hstep⟩
    split
    · exact hstep.1
    · exact hlongest.concat 0
  · rw [zeroesStep, if_neg (show ¬ (segment, segments.length).1 = 0 from hzero)]
    exact ⟨hlongest.concat segment, ⟨Nat.zero_le _, fun i hi hlt => absurd hlt (by simp)⟩, .inl rfl⟩

/-- The longest run is a run of zeros. -/
theorem isRun_zeroes (segments : List UInt16) : IsRun segments (zeroes segments) := by
  have hfold : IsRun segments (segments.zipIdx.foldl zeroesStep ({}, {})).1 ∧
      IsCurrent segments (segments.zipIdx.foldl zeroesStep ({}, {})).2 := by
    induction segments using List.reverseRecOn with
    | nil => exact ⟨⟨Nat.le_refl 0, by simp⟩, ⟨Nat.le_refl 0, by simp⟩, .inl rfl⟩
    | append_singleton segments segment ih =>
      rw [List.zipIdx_append, List.foldl_append, Nat.zero_add, List.zipIdx_singleton,
        List.foldl_cons, List.foldl_nil]
      exact zeroesStep_spec segment ih.1 ih.2
  exact hfold.1

/-- The segments around a run of zeros. -/
theorem IsRun.eq_append {segments : List UInt16} {span : Span} (h : IsRun segments span) :
    segments = segments.take span.start ++ List.replicate span.len 0 ++
      segments.drop (span.start + span.len) := by
  have hzeros : (segments.drop span.start).take span.len = List.replicate span.len 0 := by
    refine List.eq_replicate_iff.mpr ⟨?_, fun segment hsegment => ?_⟩
    · rw [List.length_take, List.length_drop]
      have := h.le_length
      omega
    · obtain ⟨i, hi, rfl⟩ := List.mem_iff_getElem.mp hsegment
      rw [List.length_take] at hi
      rw [List.getElem_take, List.getElem_drop]
      have hget := h.eq_zero (span.start + i) (by omega) (by omega)
      exact (List.getElem?_eq_some_iff.mp hget).2
  rw [← hzeros, List.append_assoc, ← List.drop_drop, List.take_append_drop,
    List.take_append_drop]

/-! ### Reading what is displayed -/

/-- Eight groups without `::`. -/
theorem readIpv6Addr_numbersText {segments : List UInt16} (hlength : segments.length = 8) :
    readIpv6Addr (numbersText ':' 16 0 (segments.map UInt16.toNat) ++ []) =
      some (segments, []) := by
  rw [readIpv6Addr, readGroups_numbersText hlength.le (.inl rfl)]
  exact if_pos hlength

theorem readIpv6Addr_of_readGroups {s rest rest' : List Char} {head tail : List UInt16}
    {ipv4 : Bool} (hhead : readGroups 8 0 s = (head, false, ':' :: ':' :: rest))
    (hlength : head.length ≠ 8)
    (htail : readGroups (8 - (head.length + 1)) 0 rest = (tail, ipv4, rest')) :
    readIpv6Addr s =
      some (head ++ List.replicate (8 - head.length - tail.length) 0 ++ tail, rest') := by
  simp only [readIpv6Addr, hhead, if_neg hlength, Bool.false_eq_true, if_false, htail]

/-- The groups before and after `::`. -/
theorem readIpv6Addr_compressed {front back : List UInt16}
    (hlength : front.length + 1 + back.length < 8) :
    readIpv6Addr (numbersText ':' 16 0 (front.map UInt16.toNat) ++
        ':' :: ':' :: (numbersText ':' 16 0 (back.map UInt16.toNat) ++ [])) =
      some (front ++ List.replicate (8 - front.length - back.length) 0 ++ back, []) := by
  have hback : readGroups (8 - (front.length + 1)) 0
      (numbersText ':' 16 0 (back.map UInt16.toNat) ++ []) = (back, false, []) :=
    readGroups_numbersText (by omega) (.inl rfl)
  exact readIpv6Addr_of_readGroups (readGroups_numbersText (by omega) (.inr ⟨_, rfl⟩)) (by omega)
    hback

/-- The octets of two segments. -/
theorem segmentsOfOctets_mapped (ab cd : UInt16) :
    segmentsOfOctets [(ab.toNat / 256).toUInt8, ab.toUInt8, (cd.toNat / 256).toUInt8,
      cd.toUInt8] = [ab, cd] := by
  have hsegment (u : UInt16) :
      ((u.toNat / 256).toUInt8.toNat * 256 + u.toUInt8.toNat).toUInt16 = u := by
    have hlt := u.toNat_lt
    rw [← UInt16.toNat_inj]
    simp
    omega
  rw [segmentsOfOctets, segmentsOfOctets, segmentsOfOctets, hsegment, hsegment]
  intro hi lo octets h
  cases h

/-- An IPv4 address behind `::ffff:`. -/
theorem readIpv6Addr_mapped {octets : List UInt8} (hlength : octets.length = 4) :
    readIpv6Addr ("::ffff:".toList ++ displayOctets octets) =
      some (List.replicate (8 - (0xffff :: segmentsOfOctets octets).length) 0 ++
        0xffff :: segmentsOfOctets octets, []) := by
  have hgroup : Nat.toDigits 16 (0xffff : UInt16).toNat = "ffff".toList := rfl
  have hhead : readGroups 8 0 (':' :: ':' :: ("ffff".toList ++ ':' :: displayOctets octets)) =
      ([], false, ':' :: ':' :: ("ffff".toList ++ ':' :: displayOctets octets)) :=
    @readGroups_numbersText [] 8 0 _ (Nat.zero_le 8) (.inr ⟨_, rfl⟩)
  have hoctets : readGroups 6 1 (':' :: displayOctets octets) =
      (segmentsOfOctets octets, true, []) := by
    have hread : readSeparator ':' 1 readIpv4Addr (':' :: displayOctets octets) =
        some (octets, []) :=
      readIpv4Addr_iff.mpr ⟨hlength, by simp [EndsDigits], (List.append_nil _).symm⟩
    rw [readGroups, if_pos (by decide), hread]
  have htail : readGroups 7 0 ("ffff".toList ++ ':' :: displayOctets octets) =
      (0xffff :: segmentsOfOctets octets, true, []) := by
    have hends : EndsDigits 16 (':' :: displayOctets octets) := by
      intro c hc
      obtain rfl : ':' = c := by simpa using hc
      decide
    have hipv4 : readSeparator ':' 0 readIpv4Addr
        ("ffff".toList ++ ':' :: displayOctets octets) = none :=
      hgroup ▸ readIpv4Addr_group (.inr ⟨_, rfl⟩)
    have hread : readSeparator ':' 0 readGroup ("ffff".toList ++ ':' :: displayOctets octets) =
        some (0xffff, ':' :: displayOctets octets) := hgroup ▸ readGroup_toDigits 0xffff hends
    rw [readGroups, if_pos (by decide), hipv4]
    dsimp only
    rw [hread]
    dsimp only
    rw [hoctets]
  exact readIpv6Addr_of_readGroups hhead (by decide) htail

theorem displayChars_ne_ipv4 (ip : Ipv6Addr) : readIpv4Addr ip.displayChars = none := by
  rw [displayChars]
  cases ip.toIpv4Mapped with
  | some octets => rfl
  | none =>
    dsimp only
    split_ifs with hzeroes
    · rw [List.append_assoc, fmtSubslice_eq_numbersText]
      exact readIpv4Addr_numbersText (.inr ⟨_, rfl⟩)
    · rw [fmtSubslice_eq_numbersText, ← List.append_nil (numbersText _ _ _ _)]
      exact readIpv4Addr_numbersText (.inl rfl)

/-- **An IPv6 address is read back.** -/
theorem readIpv6Addr_displayChars (ip : Ipv6Addr) :
    readIpv6Addr ip.displayChars = some (ip.segments, []) := by
  have hlength := ip.length_eq
  rw [displayChars]
  cases hmapped : ip.toIpv4Mapped with
  | some octets =>
    rw [toIpv4Mapped] at hmapped
    split at hmapped
    · rename_i ab cd hsegments
      obtain rfl := Option.some.inj hmapped
      rw [hsegments, readIpv6Addr_mapped rfl, segmentsOfOctets_mapped]
      rfl
    · cases hmapped
  | none =>
    dsimp only
    split_ifs with hzeroes
    · have hrun := isRun_zeroes ip.segments
      have hle := hrun.le_length
      rw [fmtSubslice_eq_numbersText, fmtSubslice_eq_numbersText, List.append_assoc,
        ← List.append_nil (numbersText _ _ _ (List.map _ (List.drop _ _)))]
      have hread := @readIpv6Addr_compressed (ip.segments.take (zeroes ip.segments).start)
        (ip.segments.drop ((zeroes ip.segments).start + (zeroes ip.segments).len)) (by
          rw [List.length_take, List.length_drop]
          omega)
      have hzeros : 8 - (ip.segments.take (zeroes ip.segments).start).length -
          (ip.segments.drop ((zeroes ip.segments).start + (zeroes ip.segments).len)).length =
            (zeroes ip.segments).len := by
        rw [List.length_take, List.length_drop]
        omega
      rw [hzeros, ← hrun.eq_append] at hread
      exact hread
    · rw [fmtSubslice_eq_numbersText, ← List.append_nil (numbersText _ _ _ _)]
      exact readIpv6Addr_numbersText hlength

/-! ### Texts of IPv6 addresses -/

/-- What has been read has a colon if there is a group behind the first one. -/
theorem exists_append_readGroups (more index : ℕ) (s : List Char) :
    ∃ front, s = front ++ (readGroups more index s).2.2 ∧
      ((0 < index ∧ (readGroups more index s).1 ≠ []) ∨ 2 < (readGroups more index s).1.length →
        ':' ∈ front) := by
  induction more generalizing index s with
  | zero => exact ⟨[], rfl, by simp [readGroups]⟩
  | succ more ih =>
    rw [readGroups]
    cases hipv4 : if 0 < more then readSeparator ':' index readIpv4Addr s else none with
    | some r =>
      obtain ⟨octets, rest⟩ := r
      -- an IPv4 address ends the groups
      have hread : readSeparator ':' index readIpv4Addr s = some (octets, rest) := by
        split_ifs at hipv4
        exact hipv4
      obtain ⟨s', rfl, hoctets⟩ := readSeparator_eq_some_iff.mp hread
      obtain ⟨hlength, -, rfl⟩ := readIpv4Addr_iff.mp hoctets
      refine ⟨(if 0 < index then [':'] else []) ++ displayOctets octets,
        (List.append_assoc _ _ _).symm, ?_⟩
      rintro (⟨hindex, -⟩ | hlong)
      · rw [if_pos hindex]
        exact List.mem_cons_self
      · match octets, hlength with
        | [a, b, c, d], _ => exact absurd hlong (by simp [segmentsOfOctets])
    | none =>
      dsimp only
      cases hgroup : readSeparator ':' index readGroup s with
      | none => exact ⟨[], rfl, by simp⟩
      | some r =>
        obtain ⟨group, rest⟩ := r
        -- a group of digits, and the groups after it
        obtain ⟨s', rfl, hread⟩ := readSeparator_eq_some_iff.mp hgroup
        obtain ⟨⟨n, rest'⟩, hnumber, heq⟩ := Option.map_eq_some_iff.mp hread
        obtain ⟨-, rfl⟩ := Prod.mk.inj heq
        obtain ⟨digits, rfl, -⟩ := readNumber_eq_some hnumber
        obtain ⟨front, hfront, hcolon⟩ := ih (index + 1) rest'
        refine ⟨(if 0 < index then [':'] else []) ++ digits ++ front, ?_, ?_⟩
        · dsimp only
          rw [List.append_assoc, List.append_assoc, ← hfront]
        · dsimp only
          rintro (⟨hindex, -⟩ | hlong)
          · rw [if_pos hindex]
            simp
          · refine List.mem_append_right _ (hcolon (.inl ⟨Nat.succ_pos index, fun hnil => ?_⟩))
            rw [List.length_cons, hnil] at hlong
            exact absurd hlong (by decide)

/-- The text of an IPv6 address has a colon. -/
theorem colon_mem_of_readIpv6Addr {s rest : List Char} {segments : List UInt16}
    (h : readIpv6Addr s = some (segments, rest)) : ':' ∈ s := by
  obtain ⟨front, hfront, hcolon⟩ := exists_append_readGroups 8 0 s
  rw [readIpv6Addr] at h
  dsimp only at h
  split_ifs at h with hlength
  · rw [hfront]
    exact List.mem_append_left _ (hcolon (.inr (by omega)))
  · split at h
    · rename_i rest' hrest
      rw [hfront, hrest]
      simp
    · cases h

end Ipv6Addr

namespace IpAddr

/-- **An address is restored from its text.** -/
theorem fromStr_display (ip : IpAddr) : fromStr ip.display = some ip := by
  cases ip with
  | v4 ip =>
    have hread : readIpv4Addr (display (.v4 ip)).toList = some (ip.octets, []) := by
      refine readIpv4Addr_iff.mpr ⟨ip.length_eq, by simp [EndsDigits], ?_⟩
      rw [List.append_nil, display, Ipv4Addr.display, String.toList_ofList]
    rw [fromStr, hread]
    exact dif_pos ip.length_eq
  | v6 ip =>
    have htext : (display (.v6 ip)).toList = ip.displayChars := String.toList_ofList
    rw [fromStr, htext, ip.displayChars_ne_ipv4, ip.readIpv6Addr_displayChars]
    exact dif_pos ip.length_eq

/-- **An IPv4 address has one text, and the text of an IPv6 address has a colon.** -/
theorem of_fromStr {s : String} {ip : IpAddr} (h : fromStr s = some ip) :
    (∃ ip', ip = .v4 ip' ∧ s = ip'.display) ∨ ':' ∈ s.toList := by
  rw [fromStr] at h
  split at h
  · rename_i octets hread
    split_ifs at h with hlength
    obtain ⟨-, -, htext⟩ := readIpv4Addr_iff.mp hread
    refine .inl ⟨⟨octets, hlength⟩, (Option.some.inj h).symm, String.toList_inj.mp ?_⟩
    rw [htext, List.append_nil, Ipv4Addr.display, String.toList_ofList]
  · cases h
  · split at h
    · rename_i segments hread
      exact .inr (Ipv6Addr.colon_mem_of_readIpv6Addr hread)
    · cases h

end IpAddr

end StackableOperator
