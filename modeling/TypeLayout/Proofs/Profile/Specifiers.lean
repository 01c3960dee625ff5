import Mathlib.Data.Multiset.OrderedMonoid
import Mathlib.Data.List.Induction
import Mathlib.Tactic.Abel
import TypeLayout.Fundamental.Specifier
/-! Which sequences of specifiers name a fundamental type. Their order does not matter: a collection
stands for the multiset of the words it was read from, up to the count of `long`, which is kept in a
byte. -/

namespace TypeLayout

def given (b : Bool) (word : String) : Multiset String := if b then {word} else 0

@[simp] theorem given_true (word : String) : given true word = {word} := rfl

@[simp] theorem given_false (word : String) : given false word = 0 := rfl

@[simp] theorem given_eq_zero {b : Bool} {word : String} : given b word = 0 ↔ b = false := by
  cases b <;> simp

theorem mem_given {b : Bool} {word w : String} : w ∈ given b word ↔ b = true ∧ w = word := by
  cases b <;> simp

inductive IntegerLength
  | short | int | long | longLong

namespace IntegerLength

def words : IntegerLength → Multiset String
  | short => {"short"}
  | int => 0
  | long => {"long"}
  | longLong => {"long", "long"}

def signed : IntegerLength → Fundamental
  | short => .short
  | int => .int
  | long => .long
  | longLong => .longLong

def unsigned : IntegerLength → Fundamental
  | short => .unsignedShort
  | int => .unsignedInt
  | long => .unsignedLong
  | longLong => .unsignedLongLong

end IntegerLength

/-- The words that the language allows for a fundamental type. -/
inductive Fundamental.Spelled : Fundamental → Multiset String → Prop
  | char : Spelled .char {"char"}
  | signedChar : Spelled .signedChar {"signed", "char"}
  | unsignedChar : Spelled .unsignedChar {"unsigned", "char"}
  | signedInteger (l : IntegerLength) (int sign : Bool) :
    l.words + given int "int" + given sign "signed" ≠ 0 →
    Spelled l.signed (l.words + given int "int" + given sign "signed")
  | unsignedInteger (l : IntegerLength) (int : Bool) :
    Spelled l.unsigned (l.words + given int "int" + {"unsigned"})
  | float : Spelled .float {"float"}
  | double : Spelled .double {"double"}
  | longDouble : Spelled .longDouble {"long", "double"}
  | bool {word : String} : word = "bool" ∨ word = "_Bool" → Spelled .bool {word}
  | wideChar : Spelled .wideChar {"wchar_t"}
  | void : Spelled .void {"void"}

def BaseWord.Written : Option BaseWord → Multiset String → Prop
  | none, m => m = 0
  | some b, m => ∃ word, BaseWord.ofString? word = some b ∧ m = {word}

theorem BaseWord.ofString?_eq_some {word : String} {b : BaseWord}
    (h : BaseWord.ofString? word = some b) :
    (word, b) ∈ [("char", BaseWord.char), ("float", .float), ("double", .double), ("bool", .bool),
      ("_Bool", .bool), ("wchar_t", .wideChar), ("void", .void)] := by
  unfold ofString? at h
  split_ifs at h with hchar hfloat hdouble hbool hwide hvoid <;> cases h
  · simp [hchar]
  · simp [hfloat]
  · simp [hdouble]
  · simp only [Bool.or_eq_true, decide_eq_true_eq] at hbool
    rcases hbool with rfl | rfl <;> simp
  · simp [hwide]
  · simp [hvoid]

namespace Specifiers

variable {s s' : Specifiers} {word : String} {m : Multiset String} {k : Fundamental}

inductive Adds (s : Specifiers) : String → Specifiers → Prop
  | long : Adds s "long" { s with longs := s.longs + 1 }
  | signed : s.isSigned = false → Adds s "signed" { s with isSigned := true }
  | unsigned : s.isUnsigned = false → Adds s "unsigned" { s with isUnsigned := true }
  | short : s.isShort = false → Adds s "short" { s with isShort := true }
  | int : s.isInt = false → Adds s "int" { s with isInt := true }
  | base {word : String} {b : BaseWord} : BaseWord.ofString? word = some b → s.base = none →
    Adds s word { s with base := some b }

theorem add_eq_some : s.add word = some s' ↔ s.Adds word s' := by
  constructor
  · intro h
    unfold add at h
    split_ifs at h with hlong hsigned hs hunsigned hu hshort hsh hint hi
    · cases h
      exact hlong ▸ .long
    · cases h
      exact hsigned ▸ .signed (by simpa using hs)
    · cases h
      exact hunsigned ▸ .unsigned (by simpa using hu)
    · cases h
      exact hshort ▸ .short (by simpa using hsh)
    · cases h
      exact hint ▸ .int (by simpa using hi)
    · split at h
      next b hb hw =>
        cases h
        exact .base hw hb
      next => cases h
  · intro h
    cases h with
    | long => rfl
    | signed h => simp [add, h]
    | unsigned h => simp [add, h]
    | short h => simp [add, h]
    | int h => simp [add, h]
    | base hw hb =>
      have hmem := BaseWord.ofString?_eq_some hw
      simp only [List.mem_cons, Prod.mk.injEq, List.not_mem_nil, or_false] at hmem
      rcases hmem with ⟨rfl, rfl⟩ | ⟨rfl, rfl⟩ | ⟨rfl, rfl⟩ | ⟨rfl, rfl⟩ | ⟨rfl, rfl⟩ |
        ⟨rfl, rfl⟩ | ⟨rfl, rfl⟩ <;> simp [add, hb, BaseWord.ofString?]

/-- The multiset that a collection was read from. -/
def Collects (s : Specifiers) (m : Multiset String) : Prop :=
  ∃ n base, s.longs = UInt8.ofNat n ∧ BaseWord.Written s.base base ∧
    m = .replicate n "long" + given s.isSigned "signed" + given s.isUnsigned "unsigned" +
      given s.isShort "short" + given s.isInt "int" + base

theorem collects_empty : ({} : Specifiers).Collects 0 := ⟨0, 0, rfl, rfl, rfl⟩

theorem Collects.add (h : s.Collects m) (hw : s.Adds word s') : s'.Collects (word ::ₘ m) := by
  obtain ⟨n, base, hn, hbase, rfl⟩ := h
  rw [← Multiset.singleton_add]
  cases hw with
  | long =>
    refine ⟨n + 1, base, by simp [hn], hbase, ?_⟩
    rw [Multiset.replicate_succ, ← Multiset.singleton_add]
    abel
  | signed hs | unsigned hs | short hs | int hs =>
    refine ⟨n, base, hn, hbase, ?_⟩
    rw [hs, given_false, given_true]
    abel
  | base hw hb =>
    rw [hb] at hbase
    obtain rfl : base = 0 := hbase
    refine ⟨n, {word}, hn, ⟨word, hw, rfl⟩, ?_⟩
    abel

theorem Collects.exists_adds (h : s'.Collects (word ::ₘ m)) :
    ∃ s : Specifiers, s.Collects m ∧ s.Adds word s' := by
  obtain ⟨longs, signed, unsigned, short, int, b⟩ := s'
  obtain ⟨n, base, hn, hbase, hm⟩ := h
  have hmem : word ∈ word ::ₘ m := Multiset.mem_cons_self _ _
  rw [hm] at hmem
  rw [← Multiset.singleton_add] at hm
  dsimp only at hn hbase hm hmem
  simp only [Multiset.mem_add, mem_given, Multiset.mem_replicate] at hmem
  rcases hmem with ((((⟨hpos, rfl⟩ | ⟨rfl, rfl⟩) | ⟨rfl, rfl⟩) | ⟨rfl, rfl⟩) | ⟨rfl, rfl⟩) | hword
  · obtain ⟨n, rfl⟩ := Nat.exists_eq_succ_of_ne_zero hpos
    obtain rfl : longs = UInt8.ofNat n + 1 := by simp [hn]
    refine ⟨⟨UInt8.ofNat n, signed, unsigned, short, int, b⟩,
      ⟨n, base, rfl, hbase, add_left_cancel (hm.trans ?_)⟩, .long⟩
    rw [Multiset.replicate_succ, ← Multiset.singleton_add]
    abel
  · refine ⟨⟨longs, false, unsigned, short, int, b⟩,
      ⟨n, base, hn, hbase, add_left_cancel (hm.trans ?_)⟩, .signed rfl⟩
    rw [given_false, given_true]
    abel
  · refine ⟨⟨longs, signed, false, short, int, b⟩,
      ⟨n, base, hn, hbase, add_left_cancel (hm.trans ?_)⟩, .unsigned rfl⟩
    rw [given_false, given_true]
    abel
  · refine ⟨⟨longs, signed, unsigned, false, int, b⟩,
      ⟨n, base, hn, hbase, add_left_cancel (hm.trans ?_)⟩, .short rfl⟩
    rw [given_false, given_true]
    abel
  · refine ⟨⟨longs, signed, unsigned, short, false, b⟩,
      ⟨n, base, hn, hbase, add_left_cancel (hm.trans ?_)⟩, .int rfl⟩
    rw [given_false, given_true]
    abel
  · cases b with
    | none =>
      obtain rfl : base = 0 := hbase
      exact absurd hword (Multiset.notMem_zero _)
    | some b =>
      obtain ⟨w, hw, rfl⟩ := hbase
      obtain rfl := Multiset.mem_singleton.mp hword
      refine ⟨⟨longs, signed, unsigned, short, int, none⟩,
        ⟨n, 0, hn, rfl, add_left_cancel (hm.trans ?_)⟩, .base hw rfl⟩
      abel

theorem eq_empty_of_collects_zero (h : s.Collects 0) : s = {} := by
  obtain ⟨longs, signed, unsigned, short, int, b⟩ := s
  obtain ⟨n, base, hn, hbase, hm⟩ := h
  have hnil := hm.symm
  simp only [add_eq_zero, given_eq_zero] at hnil
  obtain ⟨⟨⟨⟨⟨hlongs, rfl⟩, rfl⟩, rfl⟩, rfl⟩, rfl⟩ := hnil
  obtain rfl : n = 0 := by simpa using congrArg Multiset.card hlongs
  cases b with
  | none =>
    obtain rfl : longs = 0 := hn
    rfl
  | some b =>
    obtain ⟨w, -, hw⟩ := hbase
    exact absurd hw.symm (Multiset.singleton_ne_zero w)

theorem foldlM_add_eq_some {words : List String} :
    words.foldlM add {} = some s ↔ s.Collects words := by
  induction words using List.reverseRecOn generalizing s with
  | nil =>
    constructor
    · intro h
      cases h
      exact collects_empty
    · intro h
      rw [eq_empty_of_collects_zero h]
      rfl
  | append_singleton words word ih =>
    have hm : ((words ++ [word] : List String) : Multiset String) = word ::ₘ words := by
      rw [← Multiset.coe_add, Multiset.coe_singleton, add_comm, Multiset.singleton_add]
    rw [List.foldlM_append, hm]
    simp only [List.foldlM_cons, List.foldlM_nil, bind_pure, Option.bind_eq_bind,
      Option.bind_eq_some_iff, add_eq_some, ih]
    constructor
    · rintro ⟨s₀, hs, hadds⟩
      exact hs.add hadds
    · exact Collects.exists_adds

def written (s : Specifiers) (base : Multiset String) : Multiset String :=
  .replicate s.longs.toNat "long" + given s.isSigned "signed" + given s.isUnsigned "unsigned" +
    given s.isShort "short" + given s.isInt "int" + base

theorem collects_iff : s.Collects m ↔ ∃ n base, BaseWord.Written s.base base ∧
    m = s.written base + .replicate (256 * n) "long" := by
  constructor
  · rintro ⟨n, base, hn, hbase, rfl⟩
    refine ⟨n / 256, base, hbase, ?_⟩
    have hlongs : n = s.longs.toNat + 256 * (n / 256) := by
      rw [hn]
      simp
      omega
    rw [written]
    nth_rewrite 1 [hlongs]
    rw [Multiset.replicate_add]
    abel
  · rintro ⟨n, base, hbase, rfl⟩
    refine ⟨s.longs.toNat + 256 * n, base, ?_, hbase, ?_⟩
    · apply UInt8.toNat_inj.mp
      simp
    · rw [written, Multiset.replicate_add]
      abel

variable {base : Multiset String}

theorem written_of_isBare (h : s.isBare = true) : s.written base = base := by
  simp only [isBare, hasSign, Bool.and_eq_true, Bool.not_eq_true', Bool.or_eq_false_iff,
    beq_iff_eq] at h
  obtain ⟨⟨⟨⟨hsigned, hunsigned⟩, hshort⟩, hint⟩, hlongs⟩ := h
  simp [written, hsigned, hunsigned, hshort, hint, hlongs]

theorem exists_length_of_integer? (hlongs : s.longs.toNat ≤ 2)
    (hshort : s.isShort = true → s.longs = 0) (hk : s.integer? = some k) : ∃ l : IntegerLength,
      k = (if s.isUnsigned then l.unsigned else l.signed) ∧
      l.words = .replicate s.longs.toNat "long" + given s.isShort "short" ∧ s.written 0 ≠ 0 := by
  unfold integer? at hk
  split at hk
  next h =>
    refine ⟨.short, (Option.some.inj hk).symm, ?_, ?_⟩
    · simp [hshort h, h, IntegerLength.words]
    · simp [written, h]
  next h =>
    have h : s.isShort = false := by simpa using h
    split at hk
    next hl =>
      refine ⟨.longLong, (Option.some.inj hk).symm, ?_, ?_⟩
      · simp [hl, h, IntegerLength.words]
      · simp [written, hl]
    next hl₂ =>
      split at hk
      next hl =>
        refine ⟨.long, (Option.some.inj hk).symm, ?_, ?_⟩
        · simp [hl, h, IntegerLength.words]
        · simp [written, hl]
      next hl₁ =>
        split at hk
        next hs =>
          have hl : s.longs.toNat = 0 := by
            simp only [← UInt8.toNat_inj] at hl₁ hl₂
            have : s.longs.toNat ≠ 1 := hl₁
            have : s.longs.toNat ≠ 2 := hl₂
            omega
          refine ⟨.int, (Option.some.inj hk).symm, ?_, ?_⟩
          · simp [hl, h, IntegerLength.words]
          · simp only [hasSign, Bool.or_eq_true] at hs
            rcases hs with hs | hs | hs <;> simp [written, hs]
        next => cases hk

theorem spelled_of_integer? (hsign : s.isSigned = true → s.isUnsigned = false)
    (hlongs : s.longs.toNat ≤ 2) (hshort : s.isShort = true → s.longs = 0)
    (hk : s.integer? = some k) : k.Spelled (s.written 0) := by
  obtain ⟨l, rfl, hl, hne⟩ := exists_length_of_integer? hlongs hshort hk
  have hsum : s.written 0 = l.words + given s.isInt "int" + given s.isSigned "signed" +
      given s.isUnsigned "unsigned" := by
    rw [hl, written]
    abel
  rw [hsum] at hne ⊢
  cases hu : s.isUnsigned with
  | true =>
    have hs : s.isSigned = false := by
      by_contra hs
      simp [hsign (by simpa using hs)] at hu
    rw [hs, given_false, add_zero, given_true]
    exact .unsignedInteger l _
  | false =>
    rw [hu, given_false, add_zero] at hne
    rw [given_false, add_zero]
    exact .signedInteger l _ _ hne

theorem spelled_of_char (hsign : s.isSigned = true → s.isUnsigned = false)
    (hk : (if s.isShort || s.isInt || s.longs > 0 then none
      else some (if s.isSigned then .signedChar
        else if s.isUnsigned then .unsignedChar else .char)) = some k) :
    k.Spelled (s.written {"char"}) := by
  obtain ⟨hbare, ⟨⟩⟩ := Option.ite_none_left_eq_some.mp hk
  simp only [Bool.or_eq_true, decide_eq_true_eq, not_or, Bool.not_eq_true, gt_iff_lt, UInt8.not_lt,
    UInt8.le_zero_iff] at hbare
  obtain ⟨⟨hshort, hint⟩, hlongs⟩ := hbare
  rw [written, hshort, hint, hlongs]
  cases hs : s.isSigned with
  | true =>
    rw [hsign hs]
    exact .signedChar
  | false =>
    cases s.isUnsigned with
    | true => exact .unsignedChar
    | false => exact .char

theorem spelled_of_double (hk : (if s.hasSign || s.isShort || s.isInt then none
      else if s.longs = 0 then some .double
      else if s.longs = 1 then some .longDouble
      else none) = some k) : k.Spelled (s.written {"double"}) := by
  obtain ⟨hbare, hk⟩ := Option.ite_none_left_eq_some.mp hk
  simp only [hasSign, Bool.or_eq_true, not_or, Bool.not_eq_true] at hbare
  obtain ⟨⟨⟨hsigned, hunsigned⟩, hshort⟩, hint⟩ := hbare
  rw [written, hsigned, hunsigned, hshort, hint]
  split at hk
  next hlongs =>
    cases hk
    rw [hlongs]
    exact .double
  next =>
    obtain ⟨hlongs, ⟨⟩⟩ := Option.ite_none_right_eq_some.mp hk
    rw [hlongs]
    exact .longDouble

theorem spelled_of_bare {k' : Fundamental} (hb : k'.Spelled base)
    (hk : (if s.isBare then some k' else none) = some k) : k.Spelled (s.written base) := by
  obtain ⟨hbare, ⟨⟩⟩ := Option.ite_none_right_eq_some.mp hk
  rwa [written_of_isBare hbare]

theorem spelled_of_fundamental? (hb : BaseWord.Written s.base base)
    (hk : s.fundamental? = some k) : k.Spelled (s.written base) := by
  unfold fundamental? at hk
  obtain ⟨hclash, hk⟩ := Option.ite_none_left_eq_some.mp hk
  simp only [Bool.or_eq_true, Bool.and_eq_true, decide_eq_true_eq, not_or, not_and, gt_iff_lt,
    UInt8.not_lt, Bool.not_eq_true] at hclash
  obtain ⟨⟨hsign, hlongs⟩, hshort⟩ := hclash
  cases hbase : s.base with
  | none =>
    rw [hbase] at hb hk
    obtain rfl : base = 0 := hb
    exact spelled_of_integer? hsign hlongs (fun h => UInt8.le_zero_iff.mp (hshort h)) hk
  | some b =>
    rw [hbase] at hb hk
    obtain ⟨w, hw, rfl⟩ := hb
    have hmem := BaseWord.ofString?_eq_some hw
    cases b with
    | char =>
      obtain rfl : w = "char" := by simpa using hmem
      exact spelled_of_char hsign hk
    | double =>
      obtain rfl : w = "double" := by simpa using hmem
      exact spelled_of_double hk
    | float =>
      obtain rfl : w = "float" := by simpa using hmem
      exact spelled_of_bare .float hk
    | bool => exact spelled_of_bare (.bool (by simpa using hmem)) hk
    | wideChar =>
      obtain rfl : w = "wchar_t" := by simpa using hmem
      exact spelled_of_bare .wideChar hk
    | void =>
      obtain rfl : w = "void" := by simpa using hmem
      exact spelled_of_bare .void hk

def ofLength (l : IntegerLength) (signed unsigned int : Bool) : Specifiers :=
  match l with
  | .short => ⟨0, signed, unsigned, true, int, none⟩
  | .int => ⟨0, signed, unsigned, false, int, none⟩
  | .long => ⟨1, signed, unsigned, false, int, none⟩
  | .longLong => ⟨2, signed, unsigned, false, int, none⟩

theorem written_ofLength (l : IntegerLength) (signed unsigned int : Bool) :
    (ofLength l signed unsigned int).written 0 =
      l.words + given int "int" + given signed "signed" + given unsigned "unsigned" := by
  have hwords : l.words =
      .replicate (ofLength l signed unsigned int).longs.toNat "long" +
        given (ofLength l signed unsigned int).isShort "short" := by
    cases l <;> rfl
  have hflags : (ofLength l signed unsigned int).isSigned = signed ∧
      (ofLength l signed unsigned int).isUnsigned = unsigned ∧
      (ofLength l signed unsigned int).isInt = int := by
    cases l <;> exact ⟨rfl, rfl, rfl⟩
  rw [written, hflags.1, hflags.2.1, hflags.2.2, hwords]
  abel

theorem exists_of_spelled (h : k.Spelled m) :
    ∃ (s : Specifiers) (base : Multiset String), BaseWord.Written s.base base ∧
      s.written base = m ∧ s.fundamental? = some k := by
  cases h with
  | char => exact ⟨{ base := some .char }, {"char"}, ⟨_, rfl, rfl⟩, rfl, rfl⟩
  | signedChar =>
    exact ⟨{ isSigned := true, base := some .char }, {"char"}, ⟨_, rfl, rfl⟩, rfl, rfl⟩
  | unsignedChar =>
    exact ⟨{ isUnsigned := true, base := some .char }, {"char"}, ⟨_, rfl, rfl⟩, rfl, rfl⟩
  | signedInteger l int signed hne =>
    refine ⟨ofLength l signed false int, 0, ?_, ?_, ?_⟩
    · cases l <;> rfl
    · rw [written_ofLength, given_false, add_zero]
    · cases l <;> cases int <;> cases signed <;> first | rfl | exact absurd rfl hne
  | unsignedInteger l int =>
    refine ⟨ofLength l false true int, 0, ?_, ?_, ?_⟩
    · cases l <;> rfl
    · rw [written_ofLength, given_false, add_zero, given_true]
    · cases l <;> cases int <;> rfl
  | float => exact ⟨{ base := some .float }, {"float"}, ⟨_, rfl, rfl⟩, rfl, rfl⟩
  | double => exact ⟨{ base := some .double }, {"double"}, ⟨_, rfl, rfl⟩, rfl, rfl⟩
  | longDouble => exact ⟨{ longs := 1, base := some .double }, {"double"}, ⟨_, rfl, rfl⟩, rfl, rfl⟩
  | @bool w hw =>
    refine ⟨{ base := some .bool }, {w}, ⟨w, ?_, rfl⟩, ?_, rfl⟩
    · rcases hw with rfl | rfl <;> rfl
    · exact written_of_isBare rfl
  | wideChar => exact ⟨{ base := some .wideChar }, {"wchar_t"}, ⟨_, rfl, rfl⟩, rfl, rfl⟩
  | void => exact ⟨{ base := some .void }, {"void"}, ⟨_, rfl, rfl⟩, rfl, rfl⟩

end Specifiers

namespace Fundamental

variable {text : String} {k : Fundamental}

theorem ofSpelling?_eq_some : ofSpelling? text = some k ↔ ∃ m n, k.Spelled m ∧
    (Text.words text : Multiset String) = m + .replicate (256 * n) "long" := by
  unfold ofSpelling?
  simp only [Option.bind_eq_bind, Option.bind_eq_some_iff, Specifiers.foldlM_add_eq_some,
    Specifiers.collects_iff]
  constructor
  · rintro ⟨s, ⟨n, base, hb, hwords⟩, hk⟩
    exact ⟨s.written base, n, Specifiers.spelled_of_fundamental? hb hk, hwords⟩
  · rintro ⟨m, n, hm, hwords⟩
    obtain ⟨s, base, hb, rfl, hk⟩ := Specifiers.exists_of_spelled hm
    exact ⟨s, ⟨n, base, hb, hwords⟩, hk⟩

theorem Spelled.count_long_lt {m : Multiset String} (h : k.Spelled m) : m.count "long" < 256 := by
  have hgiven : ∀ (b : Bool) (w : String), w ≠ "long" → (given b w).count "long" = 0 := by
    intro b w hw
    cases b <;> simp [hw.symm]
  cases h with
  | signedInteger l int signed hne =>
    simp only [Multiset.count_add, hgiven _ "int" (by decide), hgiven _ "signed" (by decide)]
    cases l <;> decide
  | unsignedInteger l int =>
    simp only [Multiset.count_add, hgiven _ "int" (by decide)]
    cases l <;> decide
  | bool hw => rcases hw with rfl | rfl <;> decide
  | _ => decide

/-- Words are read in any order, and as the language allows them, as long as `long` is written less
than 256 times: the byte that counts it starts again at zero. -/
theorem ofSpelling?_spelled (text : String) (k : Fundamental) :
    (ofSpelling? text = some k ↔ ∃ m n, k.Spelled m ∧
      (Text.words text : Multiset String) = m + .replicate (256 * n) "long") ∧
    ((Text.words text).count "long" < 256 →
      (ofSpelling? text = some k ↔ k.Spelled (Text.words text))) ∧
    ∀ text', (Text.words text).Perm (Text.words text') → ofSpelling? text = ofSpelling? text' := by
  refine ⟨ofSpelling?_eq_some, fun hfew => ?_, fun text' hperm => ?_⟩
  · rw [ofSpelling?_eq_some]
    constructor
    · rintro ⟨m, n, hm, hwords⟩
      have hcount := congrArg (Multiset.count "long") hwords
      rw [Multiset.coe_count, Multiset.count_add, Multiset.count_replicate_self] at hcount
      obtain rfl : n = 0 := by omega
      rw [hwords, Nat.mul_zero, Multiset.replicate_zero, add_zero]
      exact hm
    · intro h
      exact ⟨_, 0, h, (add_zero _).symm⟩
  · refine Option.ext fun k' => ?_
    simp only [ofSpelling?_eq_some, Multiset.coe_eq_coe.mpr hperm]

def longs : Nat → List Char
  | 0 => ['l', 'o', 'n', 'g']
  | n + 1 => 'l' :: 'o' :: 'n' :: 'g' :: ' ' :: longs n

theorem words_longs (n : Nat) :
    Text.words (String.ofList (longs n)) = List.replicate (n + 1) "long" := by
  induction n with
  | zero => decide +kernel
  | succ n ih =>
    rw [Text.words, String.toList_ofList] at ih ⊢
    rw [List.replicate_succ, ← ih]
    rfl

/-- No words of the language are these, but they name a type. -/
theorem longs_not_spelled : ofSpelling? (String.ofList (longs 256)) = some .long ∧
    ∀ k, ¬ Fundamental.Spelled k (Text.words (String.ofList (longs 256))) := by
  rw [ofSpelling?_eq_some, words_longs]
  constructor
  · refine ⟨{"long"}, 1, .signedInteger .long false false (by simp [IntegerLength.words]), ?_⟩
    rw [← Multiset.coe_replicate]
    rfl
  · intro k h
    have hfew := h.count_long_lt
    rw [Multiset.coe_count, List.count_replicate_self] at hfew
    omega

end Fundamental

end TypeLayout
