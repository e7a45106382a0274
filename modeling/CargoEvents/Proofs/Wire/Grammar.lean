import CargoEvents.Proofs.Wire.Numbers

/-! # What payloads are made of

The bytes of a number, of a key, of a value and of a record, described apart from the readers.
Each reader takes exactly such bytes off its input and leaves what follows, so bytes are cut
into records in one way at most.
-/
namespace CargoEvents.Wire

/-- At most `groups` bytes that hold `n` in groups of seven bits, lowest group first. -/
inductive Groups : Nat → Nat → Bytes → Prop
  | last {more : Nat} {b : UInt8} (low : b < 128) (fits : ¬(more = 0 ∧ 1 < b)) :
      Groups (more + 1) b.toNat [b]
  | group {more n : Nat} {b : UInt8} {bytes : Bytes} (high : ¬b < 128)
      (later : Groups more n bytes) : Groups (more + 1) (b.toNat - 128 + 128 * n) (b :: bytes)

/-- A number of at most 64 bits. The shortest bytes that hold it need not be taken. -/
def IsVarint (n : Nat) (bytes : Bytes) : Prop := Groups 10 n bytes

def IsKey (number : Nat) (wire : WireType) (bytes : Bytes) : Prop :=
  IsNumber number ∧ IsVarint (number * 8 + wire.code) bytes

structure Record where
  number : Nat
  wire : WireType
  key : Bytes
  value : Bytes
  deriving DecidableEq, Repr

def Record.bytes (r : Record) : Bytes := r.key ++ r.value

def joined (rs : List Record) : Bytes := rs.flatMap Record.bytes

/-- The bytes of a value of field `number`. A group holds records and is closed by a key of
its own number; the budget bounds how deep groups stand inside one another. -/
def IsValue : Nat → Nat → WireType → Bytes → Prop
  | 0, _, _, _ => False
  | budget + 1, number, wire, bytes =>
    match wire with
    | .varint => ∃ n, IsVarint n bytes
    | .fixed64 => bytes.length = 8
    | .delimited => ∃ length content, IsVarint content.length length ∧ bytes = length ++ content
    | .groupStart => ∃ (rs : List Record) (close : Bytes),
        (∀ r ∈ rs, IsKey r.number r.wire r.key ∧ IsValue budget r.number r.wire r.value) ∧
          IsKey number .groupEnd close ∧ bytes = joined rs ++ close
    | .groupEnd => False
    | .fixed32 => bytes.length = 4

/-- A key followed by a value of its kind that nests groups within the budget. -/
structure Record.Within (budget : Nat) (r : Record) : Prop where
  key : IsKey r.number r.wire r.key
  value : IsValue budget r.number r.wire r.value

/-- Groups may nest in it to any depth. -/
def Record.WellFormed (r : Record) : Prop := ∃ budget, r.Within budget

@[simp] theorem joined_nil : joined [] = [] := rfl

@[simp] theorem joined_cons (r : Record) (rs : List Record) :
    joined (r :: rs) = r.key ++ (r.value ++ joined rs) := by
  rw [joined, List.flatMap_cons, Record.bytes, List.append_assoc]
  rfl

/-! ## The readers take what the grammar describes -/

theorem readGroups_eq_some {groups n : Nat} {bytes rest : Bytes} :
    readGroups groups bytes = some (n, rest) ↔ ∃ taken, Groups groups n taken ∧
      bytes = taken ++ rest := by
  constructor
  · intro h
    induction groups generalizing bytes n with
    | zero => cases h
    | succ more ih =>
      cases bytes with
      | nil => cases h
      | cons b bytes =>
        rw [readGroups] at h
        split at h
        · rename_i low
          split at h
          · cases h
          · rename_i fits
            cases h
            exact ⟨[b], .last low fits, rfl⟩
        · rename_i high
          obtain ⟨⟨n', rest'⟩, hread, heq⟩ := Option.map_eq_some_iff.mp h
          cases heq
          obtain ⟨taken, htaken, rfl⟩ := ih hread
          exact ⟨b :: taken, .group high htaken, rfl⟩
  · rintro ⟨taken, htaken, rfl⟩
    induction htaken with
    | last low fits =>
      rw [List.singleton_append, readGroups, if_pos low, if_neg fits]
    | group high later ih =>
      rw [List.cons_append, readGroups, if_neg high, ih]
      rfl

theorem readNumber_eq_ok {n : Nat} {bytes rest : Bytes} :
    readNumber bytes = .ok (n, rest) ↔ ∃ taken, IsVarint n taken ∧ bytes = taken ++ rest := by
  have hread : readNumber bytes = .ok (n, rest) ↔ readVarint bytes = some (n, rest) := by
    rw [readNumber]
    cases readVarint bytes with
    | none => simp
    | some read => simp
  exact hread.trans readGroups_eq_some

theorem IsVarint.readNumber {n : Nat} {bytes : Bytes} (h : IsVarint n bytes) (rest : Bytes) :
    readNumber (bytes ++ rest) = .ok (n, rest) :=
  readNumber_eq_ok.mpr ⟨bytes, h, rfl⟩

theorem WireType.code_of_ofCode? {code : Nat} {wire : WireType} (h : ofCode? code = some wire) :
    wire.code = code := by
  unfold ofCode? at h
  split at h <;> cases h <;> rfl

theorem readKey_eq_ok {number : Nat} {wire : WireType} {bytes rest : Bytes} :
    readKey bytes = .ok ((number, wire), rest) ↔ ∃ key, IsKey number wire key ∧
      bytes = key ++ rest := by
  constructor
  · intro h
    unfold readKey at h
    cases hnumber : readNumber bytes with
    | error reason => rw [hnumber] at h; cases h
    | ok read =>
      obtain ⟨key, rest'⟩ := read
      rw [hnumber] at h
      change (if UInt32.size ≤ key then _ else _) = _ at h
      split at h
      · cases h
      · rename_i hsmall
        split at h
        · cases h
        · rename_i wire' hwire
          split at h
          · cases h
          · rename_i hpos
            cases h
            obtain ⟨taken, htaken, rfl⟩ := readNumber_eq_ok.mp hnumber
            have hcode := WireType.code_of_ofCode? hwire
            have hkey : key / 8 * 8 + wire.code = key := by omega
            have hsize : UInt32.size = 2 ^ 32 := rfl
            refine ⟨taken, ⟨⟨by omega, by omega⟩, ?_⟩, rfl⟩
            rwa [hkey]
  · rintro ⟨key, ⟨hnumber, hkey⟩, rfl⟩
    exact readKey_of_readNumber hnumber wire (hkey.readNumber rest)

theorem IsKey.readKey {number : Nat} {wire : WireType} {key : Bytes}
    (h : IsKey number wire key) (rest : Bytes) :
    readKey (key ++ rest) = .ok ((number, wire), rest) :=
  readKey_eq_ok.mpr ⟨key, h, rfl⟩

theorem IsKey.ne_nil {number : Nat} {wire : WireType} {key : Bytes}
    (h : IsKey number wire key) : key ≠ [] := by
  intro hnil
  have hread := h.readKey []
  rw [hnil] at hread
  cases hread

theorem readExact_eq_ok {count : Nat} {bytes content rest : Bytes} :
    readExact count bytes = .ok (content, rest) ↔ content.length = count ∧
      bytes = content ++ rest := by
  constructor
  · intro h
    unfold readExact splitExact at h
    split at h
    · cases h
    · rename_i hsplit
      split at hsplit
      · rename_i hle
        rw [List.splitAt_eq] at hsplit
        cases hsplit
        cases h
        simp only [List.length_take, List.take_append_drop, and_true]
        omega
      · cases hsplit
  · rintro ⟨rfl, rfl⟩
    exact readExact_append content rest

theorem readDelimited_eq_ok {bytes content rest : Bytes} :
    readDelimited bytes = .ok (content, rest) ↔ ∃ length, IsVarint content.length length ∧
      bytes = length ++ content ++ rest := by
  constructor
  · intro h
    unfold readDelimited at h
    cases hnumber : readNumber bytes with
    | error reason => rw [hnumber] at h; cases h
    | ok read =>
      obtain ⟨count, bytes'⟩ := read
      rw [hnumber] at h
      obtain ⟨rfl, rfl⟩ := readExact_eq_ok.mp h
      obtain ⟨length, hlength, rfl⟩ := readNumber_eq_ok.mp hnumber
      exact ⟨length, hlength, (List.append_assoc _ _ _).symm⟩
  · rintro ⟨length, hlength, rfl⟩
    rw [List.append_assoc, readDelimited, hlength.readNumber]
    exact readExact_append content rest

theorem IsKey.eq {number number' : Nat} {wire wire' : WireType} {key key' rest rest' : Bytes}
    (h : IsKey number wire key) (h' : IsKey number' wire' key')
    (same : key ++ rest = key' ++ rest') :
    number = number' ∧ wire = wire' ∧ key = key' ∧ rest = rest' := by
  have hread := h.readKey rest
  rw [same, h'.readKey rest'] at hread
  cases hread
  exact ⟨rfl, rfl, List.append_cancel_right same, rfl⟩

/-! ## Passing over values -/

/-- A group is passed over record by record. Every key takes a byte at least, so that many
rounds are enough. -/
theorem skipGroup_joined {skipOne : Nat → WireType → Bytes → Except Reason Bytes} {number : Nat}
    {rs : List Record} {close : Bytes} (hclose : IsKey number .groupEnd close)
    (hrs : ∀ r ∈ rs, IsKey r.number r.wire r.key ∧ r.wire ≠ .groupEnd ∧
      ∀ rest, skipOne r.number r.wire (r.value ++ rest) = .ok rest)
    (rest : Bytes) (rounds : Nat) (hrounds : rs.length < rounds) :
    skipGroup skipOne number rounds (joined rs ++ close ++ rest) = .ok rest := by
  induction rs generalizing rounds with
  | nil =>
    obtain ⟨rounds, rfl⟩ : ∃ n, rounds = n + 1 := ⟨rounds - 1, by omega⟩
    rw [joined_nil, List.nil_append, skipGroup, hclose.readKey]
    simp only [bind, Except.bind, if_true]
  | cons r rs ih =>
    obtain ⟨rounds, rfl⟩ : ∃ n, rounds = n + 1 := ⟨rounds - 1, by omega⟩
    obtain ⟨hkey, hopen, hskip⟩ := hrs r List.mem_cons_self
    rw [List.length_cons] at hrounds
    have hlater := ih (fun r' hr' => hrs r' (List.mem_cons_of_mem r hr')) rounds (by omega)
    rw [joined_cons, List.append_assoc, List.append_assoc, List.append_assoc, skipGroup,
      hkey.readKey]
    simp only [bind, Except.bind, if_neg hopen]
    rw [hskip, ← List.append_assoc]
    exact hlater

theorem skipGroup_eq_ok {skipOne : Nat → WireType → Bytes → Except Reason Bytes}
    {isValue : Nat → WireType → Bytes → Prop}
    (hskip : ∀ {number wire bytes rest}, skipOne number wire bytes = .ok rest →
      ∃ value, isValue number wire value ∧ bytes = value ++ rest)
    {number rounds : Nat} {bytes rest : Bytes}
    (h : skipGroup skipOne number rounds bytes = .ok rest) :
    ∃ (rs : List Record) (close : Bytes),
      (∀ r ∈ rs, IsKey r.number r.wire r.key ∧ isValue r.number r.wire r.value) ∧
        IsKey number .groupEnd close ∧ bytes = joined rs ++ close ++ rest := by
  induction rounds generalizing bytes with
  | zero => cases h
  | succ rounds ih =>
    rw [skipGroup] at h
    cases hread : readKey bytes with
    | error reason => rw [hread] at h; cases h
    | ok read =>
      obtain ⟨⟨inner, wire⟩, bytes'⟩ := read
      obtain ⟨key, hkey, rfl⟩ := readKey_eq_ok.mp hread
      rw [hread] at h
      simp only [bind, Except.bind] at h
      split at h
      · rename_i hend
        subst hend
        split at h
        · rename_i hsame
          subst hsame
          cases h
          exact ⟨[], key, by simp, hkey, rfl⟩
        · cases h
      · split at h
        · cases h
        · rename_i bytes'' hone
          obtain ⟨value, hvalue, rfl⟩ := hskip hone
          obtain ⟨rs, close, hrs, hclose, rfl⟩ := ih h
          refine ⟨⟨inner, wire, key, value⟩ :: rs, close, ?_, hclose, ?_⟩
          · intro r hr
            cases hr with
            | head => exact ⟨hkey, hvalue⟩
            | tail _ hr => exact hrs r hr
          · simp only [joined_cons, List.append_assoc]

theorem not_isValue_groupEnd {budget number : Nat} {bytes : Bytes} :
    ¬IsValue budget number .groupEnd bytes := by
  cases budget with
  | zero => exact id
  | succ budget => exact id

theorem length_le_joined {rs : List Record}
    (h : ∀ r ∈ rs, IsKey r.number r.wire r.key) : rs.length ≤ (joined rs).length := by
  induction rs with
  | nil => exact Nat.le_refl 0
  | cons r rs ih =>
    have hkey := List.length_pos_iff.mpr (h r List.mem_cons_self).ne_nil
    have hlater := ih fun r' hr' => h r' (List.mem_cons_of_mem r hr')
    simp only [joined_cons, List.length_cons, List.length_append]
    omega

theorem skip_eq_ok {budget number : Nat} {wire : WireType} {bytes rest : Bytes} :
    skip budget number wire bytes = .ok rest ↔ ∃ value, IsValue budget number wire value ∧
      bytes = value ++ rest := by
  induction budget generalizing number wire bytes rest with
  | zero =>
    constructor
    · intro h
      cases h
    · rintro ⟨_, h, _⟩
      exact h.elim
  | succ budget ih =>
    have hmap {read : Except Reason (Bytes × Bytes)} :
        read.map (·.2) = .ok rest ↔ ∃ content, read = .ok (content, rest) := by
      cases read with
      | error reason => simp [Except.map]
      | ok read => obtain ⟨content, rest'⟩ := read; simp [Except.map]
    cases wire with
    | varint =>
      have hread : (readNumber bytes).map (·.2) = .ok rest ↔
          ∃ n, readNumber bytes = .ok (n, rest) := by
        cases readNumber bytes with
        | error reason => simp [Except.map]
        | ok read => obtain ⟨n, rest'⟩ := read; simp [Except.map]
      simp only [skip, IsValue, hread, readNumber_eq_ok]
      constructor
      · rintro ⟨n, value, hvalue, rfl⟩
        exact ⟨value, ⟨n, hvalue⟩, rfl⟩
      · rintro ⟨value, ⟨n, hvalue⟩, rfl⟩
        exact ⟨n, value, hvalue, rfl⟩
    | fixed64 => simp only [skip, IsValue, hmap, readExact_eq_ok]
    | fixed32 => simp only [skip, IsValue, hmap, readExact_eq_ok]
    | delimited =>
      simp only [skip, IsValue, hmap, readDelimited_eq_ok]
      constructor
      · rintro ⟨content, length, hlength, rfl⟩
        exact ⟨_, ⟨length, content, hlength, rfl⟩, rfl⟩
      · rintro ⟨_, ⟨length, content, hlength, rfl⟩, rfl⟩
        exact ⟨content, length, hlength, rfl⟩
    | groupEnd =>
      constructor
      · intro h
        cases h
      · rintro ⟨_, h, _⟩
        exact h.elim
    | groupStart =>
      simp only [skip, IsValue]
      constructor
      · intro h
        obtain ⟨rs, close, hrs, hclose, rfl⟩ := skipGroup_eq_ok (fun h => ih.mp h) h
        exact ⟨_, ⟨rs, close, hrs, hclose, rfl⟩, rfl⟩
      · rintro ⟨_, ⟨rs, close, hrs, hclose, rfl⟩, rfl⟩
        have hlength := length_le_joined fun r hr => (hrs r hr).1
        apply skipGroup_joined hclose
        · intro r hr
          obtain ⟨hkey, hvalue⟩ := hrs r hr
          refine ⟨hkey, ?_, fun rest => ih.mpr ⟨r.value, hvalue, rfl⟩⟩
          intro hend
          rw [hend] at hvalue
          exact not_isValue_groupEnd hvalue
        · simp only [List.length_append]
          omega

theorem Record.within_iff {budget : Nat} {r : Record} : r.Within budget ↔
    readKey r.key = .ok ((r.number, r.wire), []) ∧
      skip budget r.number r.wire r.value = .ok [] := by
  simp only [readKey_eq_ok, skip_eq_ok, List.append_nil, exists_eq_right']
  constructor
  · rintro ⟨key, value⟩
    exact ⟨key, value⟩
  · rintro ⟨key, value⟩
    exact ⟨key, value⟩

instance (budget : Nat) (r : Record) : Decidable (r.Within budget) :=
  decidable_of_iff _ Record.within_iff.symm

/-! ## Cutting bytes into records -/

theorem IsValue.mono {budget budget' number : Nat} {wire : WireType} {bytes : Bytes}
    (h : IsValue budget number wire bytes) (hle : budget ≤ budget') :
    IsValue budget' number wire bytes := by
  induction budget generalizing budget' number wire bytes with
  | zero => exact h.elim
  | succ budget ih =>
    obtain ⟨budget', rfl⟩ : ∃ n, budget' = n + 1 := ⟨budget' - 1, by omega⟩
    cases wire with
    | groupStart =>
      obtain ⟨rs, close, hrs, hclose, hbytes⟩ := h
      refine ⟨rs, close, fun r hr => ?_, hclose, hbytes⟩
      obtain ⟨hkey, hvalue⟩ := hrs r hr
      exact ⟨hkey, ih hvalue (by omega)⟩
    | _ => exact h

theorem IsValue.eq {budget budget' number : Nat} {wire : WireType} {value value' rest rest' : Bytes}
    (h : IsValue budget number wire value) (h' : IsValue budget' number wire value')
    (same : value ++ rest = value' ++ rest') : value = value' ∧ rest = rest' := by
  have hskip := skip_eq_ok.mpr ⟨value, h.mono (Nat.le_max_left budget budget'), same.symm⟩
  have hskip' : skip (max budget budget') number wire (value' ++ rest') = .ok rest' :=
    skip_eq_ok.mpr ⟨value', h'.mono (Nat.le_max_right budget budget'), rfl⟩
  rw [hskip] at hskip'
  cases hskip'
  exact ⟨List.append_cancel_right same, rfl⟩

theorem Record.WellFormed.joined_ne_nil {r : Record} (h : r.WellFormed) (rs : List Record) :
    joined (r :: rs) ≠ [] := by
  obtain ⟨_, hkey, _⟩ := h
  rw [joined_cons]
  exact List.append_ne_nil_of_left_ne_nil hkey.ne_nil _

theorem joined_prefix {rs rs' : List Record} (h : ∀ r ∈ rs, r.WellFormed)
    (h' : ∀ r ∈ rs', r.WellFormed) {rest : Bytes} (same : joined rs' = joined rs ++ rest) :
    ∃ later, rs' = rs ++ later ∧ rest = joined later := by
  induction rs generalizing rs' with
  | nil => exact ⟨rs', rfl, same.symm⟩
  | cons r rs ih =>
    have hr := h r List.mem_cons_self
    cases rs' with
    | nil => exact absurd (List.append_eq_nil_iff.mp same.symm).1 (hr.joined_ne_nil rs)
    | cons r' rs' =>
      obtain ⟨_, hkey, hvalue⟩ := hr
      obtain ⟨_, hkey', hvalue'⟩ := h' r' List.mem_cons_self
      obtain ⟨number, wire, key, value⟩ := r
      obtain ⟨number', wire', key', value'⟩ := r'
      rw [joined_cons, joined_cons, List.append_assoc, List.append_assoc] at same
      obtain ⟨rfl, rfl, rfl, hrest⟩ := hkey'.eq hkey same
      obtain ⟨rfl, hlater⟩ := hvalue'.eq hvalue hrest
      obtain ⟨later, rfl, rfl⟩ := ih (fun r hr => h r (List.mem_cons_of_mem _ hr))
        (fun r hr => h' r (List.mem_cons_of_mem _ hr)) hlater
      exact ⟨later, rfl, rfl⟩

/-- Bytes are the bytes of one list of well-formed records only. -/
theorem joined_inj {rs rs' : List Record} (h : ∀ r ∈ rs, r.WellFormed)
    (h' : ∀ r ∈ rs', r.WellFormed) (same : joined rs = joined rs') : rs = rs' := by
  have hend : joined rs' = joined rs ++ [] := by rw [List.append_nil, same]
  obtain ⟨later, rfl, hlater⟩ := joined_prefix h h' hend
  cases later with
  | nil => exact (List.append_nil rs).symm
  | cons r later =>
    have hr := h' r (List.mem_append_right rs List.mem_cons_self)
    exact absurd hlater.symm (hr.joined_ne_nil later)

end CargoEvents.Wire
