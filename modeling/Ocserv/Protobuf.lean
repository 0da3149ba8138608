import Mathlib.Algebra.GroupWithZero.Nat
import Mathlib.Algebra.Order.Monoid.Unbundled.Pow
import Mathlib.Data.List.Basic
import Mathlib.Data.Nat.Notation
import Mathlib.Order.Basic

/-!
# The wire format of protocol buffers

A message is a sequence of fields; a field is a number and a value, which is an integer in base
128 or bytes with their length before them (the other wire types are not used here).

* `decode_encode` : a sequence of fields is read back.
* `build` : a message is built from its fields one by one, so that a later field replaces or
  extends what an earlier one set.
* `select` : the fields with a number, for messages with many fields.
-/

namespace Ocserv

namespace Protobuf

/-! ### Integers -/

/-- An integer in base 128, the low digits first; every byte but the last one has its high bit
set. -/
def encodeVarint (n : ℕ) : List UInt8 :=
  if n < 2 ^ 7 then [UInt8.ofNat n]
  else UInt8.ofNat (n % 2 ^ 7 + 2 ^ 7) :: encodeVarint (n / 2 ^ 7)
termination_by n

/-- Read an integer of at most `max` bytes. -/
def decodeVarint : (max : ℕ) → List UInt8 → Option (ℕ × List UInt8)
  | 0, _ => none
  | _ + 1, [] => none
  | max + 1, b :: bs =>
    if b.toNat < 2 ^ 7 then some (b.toNat, bs)
    else (decodeVarint max bs).map fun p => (b.toNat % 2 ^ 7 + 2 ^ 7 * p.1, p.2)

theorem encodeVarint_of_lt {n : ℕ} (h : n < 2 ^ 7) : encodeVarint n = [UInt8.ofNat n] := by
  rw [encodeVarint, if_pos h]

theorem encodeVarint_of_le {n : ℕ} (h : 2 ^ 7 ≤ n) :
    encodeVarint n = UInt8.ofNat (n % 2 ^ 7 + 2 ^ 7) :: encodeVarint (n / 2 ^ 7) := by
  rw [encodeVarint, if_neg (not_lt.2 h)]

theorem length_encodeVarint_pos (n : ℕ) : 0 < (encodeVarint n).length := by
  by_cases h : n < 2 ^ 7
  · rw [encodeVarint_of_lt h]
    exact Nat.one_pos
  · rw [encodeVarint_of_le (not_lt.1 h)]
    exact Nat.succ_pos _

/-- An integer of one digit, or of two. -/
theorem length_encodeVarint {n : ℕ} (h : n < 2 ^ 14) :
    (encodeVarint n).length = if n < 2 ^ 7 then 1 else 2 := by
  by_cases hlt : n < 2 ^ 7
  · rw [encodeVarint_of_lt hlt, if_pos hlt]
    rfl
  · have hdiv : n / 2 ^ 7 < 2 ^ 7 := Nat.div_lt_of_lt_mul (by omega)
    rw [encodeVarint_of_le (not_lt.1 hlt), encodeVarint_of_lt hdiv, if_neg hlt]
    rfl

/-- An integer is read back, whatever is behind it. -/
theorem decodeVarint_encodeVarint (max n : ℕ) (rest : List UInt8) (h : n < 2 ^ (7 * (max + 1))) :
    decodeVarint (max + 1) (encodeVarint n ++ rest) = some (n, rest) := by
  induction max generalizing n with
  | zero =>
    have hlt : n < 2 ^ 7 := h
    have hbyte : (UInt8.ofNat n).toNat = n := by
      rw [UInt8.toNat_ofNat', Nat.mod_eq_of_lt (by omega)]
    rw [encodeVarint_of_lt hlt, List.cons_append, decodeVarint, hbyte, if_pos hlt]
    rfl
  | succ max ih =>
    -- one digit, or the low digit and the rest
    by_cases hlt : n < 2 ^ 7
    · have hbyte : (UInt8.ofNat n).toNat = n := by
        rw [UInt8.toNat_ofNat', Nat.mod_eq_of_lt (by omega)]
      rw [encodeVarint_of_lt hlt, List.cons_append, decodeVarint, hbyte, if_pos hlt]
      rfl
    · have hbyte : (UInt8.ofNat (n % 2 ^ 7 + 2 ^ 7)).toNat = n % 2 ^ 7 + 2 ^ 7 := by
        rw [UInt8.toNat_ofNat', Nat.mod_eq_of_lt (by omega)]
      have hdiv : n / 2 ^ 7 < 2 ^ (7 * (max + 1)) := by
        apply Nat.div_lt_of_lt_mul
        rw [← pow_add, show 7 + 7 * (max + 1) = 7 * (max + 1 + 1) by omega]
        exact h
      rw [encodeVarint_of_le (not_lt.1 hlt), List.cons_append, decodeVarint, hbyte,
        if_neg (by omega), ih _ hdiv, Option.map_some]
      congr 2
      omega

/-! ### Fields -/

/-- The value of a field. -/
inductive Value where
  | varint (n : ℕ)
  | bytes (data : List UInt8)
  deriving DecidableEq, Repr

/-- A field of a message. -/
structure Field where
  number : ℕ
  value : Value
  deriving DecidableEq, Repr

namespace Field

/-- The tag of a field: its number and the wire type of its value. -/
def tag (f : Field) : ℕ :=
  match f.value with
  | .varint _ => 2 ^ 3 * f.number
  | .bytes _ => 2 ^ 3 * f.number + 2

def encode (f : Field) : List UInt8 :=
  encodeVarint f.tag ++
    match f.value with
    | .varint n => encodeVarint n
    | .bytes data => encodeVarint data.length ++ data

/-- The numbers the format has room for. -/
structure Fits (f : Field) : Prop where
  number_lt : f.number < 2 ^ 29
  varint_lt : ∀ n, f.value = .varint n → n < 2 ^ 64
  length_lt : ∀ data, f.value = .bytes data → data.length < 2 ^ 32

theorem Fits.varint {number n : ℕ} (hnumber : number < 2 ^ 29) (hn : n < 2 ^ 64) :
    Fits ⟨number, .varint n⟩ :=
  ⟨hnumber, fun _ h => Value.varint.inj h ▸ hn, nofun⟩

theorem Fits.bytes {number : ℕ} {data : List UInt8} (hnumber : number < 2 ^ 29)
    (hdata : data.length < 2 ^ 32) : Fits ⟨number, .bytes data⟩ :=
  ⟨hnumber, nofun, fun _ h => Value.bytes.inj h ▸ hdata⟩

/-- Read a field: a tag of at most 5 bytes, an integer of at most 10, a length of at most 5 and
32 bits. -/
def decode (bs : List UInt8) : Option (Field × List UInt8) := do
  let (tag, bs) ← decodeVarint 5 bs
  if tag % 2 ^ 3 = 0 then
    let (n, bs) ← decodeVarint 10 bs
    some (⟨tag / 2 ^ 3, .varint n⟩, bs)
  else if tag % 2 ^ 3 = 2 then
    let (length, bs) ← decodeVarint 5 bs
    let length := length % 2 ^ 32
    if length ≤ bs.length then some (⟨tag / 2 ^ 3, .bytes (bs.take length)⟩, bs.drop length)
    else none
  else none

theorem length_encode_pos (f : Field) : 0 < f.encode.length := by
  rw [encode, List.length_append]
  exact Nat.add_pos_left (length_encodeVarint_pos _) _

/-- A field is read back, whatever is behind it. -/
theorem decode_encode (f : Field) (rest : List UInt8) (h : f.Fits) :
    decode (f.encode ++ rest) = some (f, rest) := by
  obtain ⟨number, value⟩ := f
  obtain ⟨hnumber, hvarint, hlength⟩ := h
  dsimp only at hnumber hvarint hlength
  cases value with
  | varint n =>
    have htag : 2 ^ 3 * number < 2 ^ (7 * (4 + 1)) := by omega
    have hn : n < 2 ^ (7 * (9 + 1)) := (hvarint n rfl).trans (by decide)
    rw [decode, encode, List.append_assoc, tag]
    dsimp only
    rw [decodeVarint_encodeVarint 4 _ _ htag]
    dsimp only [Option.bind_eq_bind, Option.bind_some]
    rw [if_pos (by omega), decodeVarint_encodeVarint 9 _ _ hn]
    dsimp only [Option.bind_some]
    rw [Nat.mul_div_cancel_left _ (by decide)]
  | bytes data =>
    have htag : 2 ^ 3 * number + 2 < 2 ^ (7 * (4 + 1)) := by omega
    have hlen : data.length < 2 ^ 32 := hlength data rfl
    have hlen' : data.length < 2 ^ (7 * (4 + 1)) := hlen.trans (by decide)
    rw [decode, encode, List.append_assoc, tag]
    dsimp only
    rw [decodeVarint_encodeVarint 4 _ _ htag]
    dsimp only [Option.bind_eq_bind, Option.bind_some]
    rw [if_neg (by omega), if_pos (by omega), List.append_assoc,
      decodeVarint_encodeVarint 4 _ _ hlen']
    dsimp only [Option.bind_some]
    rw [Nat.mod_eq_of_lt hlen, if_pos (by rw [List.length_append]; omega), List.take_left,
      List.drop_left]
    congr 3
    omega

end Field

/-! ### Messages -/

/-- The encoding of a sequence of fields. -/
def encode (fields : List Field) : List UInt8 := fields.flatMap Field.encode

/-- Read at most `max` fields, up to the end. -/
def decodeUpTo : (max : ℕ) → List UInt8 → Option (List Field)
  | _, [] => some []
  | 0, _ :: _ => none
  | max + 1, b :: bs => do
    let (f, rest) ← Field.decode (b :: bs)
    let fields ← decodeUpTo max rest
    some (f :: fields)

/-- Read all fields. -/
def decode (bs : List UInt8) : Option (List Field) := decodeUpTo bs.length bs

theorem encode_cons (f : Field) (fields : List Field) :
    encode (f :: fields) = f.encode ++ encode fields := rfl

theorem decodeUpTo_of_ne {bs : List UInt8} {max : ℕ} (h : bs ≠ []) :
    decodeUpTo (max + 1) bs =
      (Field.decode bs).bind fun p => (decodeUpTo max p.2).bind fun fields =>
        some (p.1 :: fields) := by
  cases bs with
  | nil => exact absurd rfl h
  | cons b bs => rfl

theorem decodeUpTo_encode (fields : List Field) (h : ∀ f ∈ fields, f.Fits) (max : ℕ)
    (hmax : fields.length ≤ max) : decodeUpTo max (encode fields) = some fields := by
  induction fields generalizing max with
  | nil => cases max <;> rfl
  | cons f fields ih =>
    obtain ⟨max, rfl⟩ : ∃ m, max = m + 1 := ⟨max - 1, by rw [List.length_cons] at hmax; omega⟩
    have hdec := Field.decode_encode f (encode fields) (h f List.mem_cons_self)
    have hrest := ih (fun g hg => h g (List.mem_cons_of_mem _ hg)) max (Nat.le_of_succ_le_succ hmax)
    have hne : f.encode ++ encode fields ≠ [] := by
      intro hnil
      have hpos := f.length_encode_pos
      rw [(List.append_eq_nil_iff.1 hnil).1] at hpos
      exact absurd hpos (Nat.lt_irrefl 0)
    rw [encode_cons, decodeUpTo_of_ne hne, hdec]
    dsimp only [Option.bind_some]
    rw [hrest]
    rfl

theorem length_le_encode (fields : List Field) : fields.length ≤ (encode fields).length := by
  induction fields with
  | nil => exact Nat.le_refl 0
  | cons f fields ih =>
    have hpos := f.length_encode_pos
    rw [encode_cons, List.length_append, List.length_cons]
    omega

/-- **A sequence of fields is read back.** -/
theorem decode_encode (fields : List Field) (h : ∀ f ∈ fields, f.Fits) :
    decode (encode fields) = some fields :=
  decodeUpTo_encode fields h _ (length_le_encode fields)

/-! ### From fields to a message -/

section Build

variable {M : Type*} (set : M → Field → Option M)

/-- Build a message from its fields, from the message `m` on. -/
def build (m : M) (fields : List Field) : Option M := fields.foldlM set m

end Build

/-- An `optional` field is written if it is there. -/
def optional {A : Type*} (number : ℕ) (value : A → Value) (a : Option A) : List Field :=
  a.toList.map fun a => ⟨number, value a⟩

theorem fits_optional {A : Type*} {number : ℕ} {value : A → Value} {a : Option A}
    (h : ∀ b, a = some b → Field.Fits ⟨number, value b⟩) :
    ∀ f ∈ optional number value a, f.Fits := by
  intro f hf
  obtain ⟨b, hb, rfl⟩ := List.mem_map.1 hf
  exact h b (Option.mem_toList.1 hb)

/-- A `repeated` field is written once for each element. -/
def repeated {A : Type*} (number : ℕ) (value : A → Value) (as : List A) : List Field :=
  as.map fun a => ⟨number, value a⟩

/-! ### Scalars of generated structures -/

/-- An `optional` scalar of a generated structure: a flag, and a value that counts if the flag is
set. -/
structure Flagged (A : Type*) where
  has : Bool
  value : A
  deriving DecidableEq, Repr

namespace Flagged

variable {A : Type*}

/-- The value that is there. -/
def toOption (x : Flagged A) : Option A := if x.has then some x.value else none

/-- A scalar as it is after `init`, or set. -/
def ofOption (default : A) : Option A → Flagged A
  | none => ⟨false, default⟩
  | some a => ⟨true, a⟩

end Flagged

/-! ### Fields by their number -/

def Value.bytes? : Value → Option (List UInt8)
  | .bytes data => some data
  | .varint _ => none

def Value.varint? : Value → Option ℕ
  | .varint n => some n
  | .bytes _ => none

section Select

variable {A B : Type*} {n k : ℕ} {get : Value → Option A} {value : B → Value} {conv : B → A}

/-- The values of the fields with a number, in their order. -/
def select (n : ℕ) (get : Value → Option A) (fields : List Field) : List A :=
  fields.filterMap fun f => if f.number = n then get f.value else none

/-- Of an `optional` field that is there several times the last one counts. -/
def selectLast (n : ℕ) (get : Value → Option A) (fields : List Field) : Option A :=
  (select n get fields).getLast?

theorem select_append (fs gs : List Field) :
    select n get (fs ++ gs) = select n get fs ++ select n get gs := List.filterMap_append ..

theorem select_repeated (h : ∀ b, get (value b) = some (conv b)) (bs : List B) :
    select n get (repeated n value bs) = bs.map conv := by
  rw [select, repeated, List.filterMap_map, ← List.filterMap_eq_map]
  refine List.filterMap_congr ?_
  intro b _
  rw [Function.comp_apply, if_pos rfl, h]
  rfl

theorem select_repeated_of_ne (h : k ≠ n) (bs : List B) :
    select n get (repeated k value bs) = [] := by
  rw [select, repeated, List.filterMap_map, List.filterMap_eq_nil_iff]
  intro b _
  rw [Function.comp_apply, if_neg h]

theorem select_optional (h : ∀ b, get (value b) = some (conv b)) (b : Option B) :
    select n get (optional n value b) = (b.map conv).toList := by
  cases b with
  | none => rfl
  | some b => exact select_repeated h [b]

theorem select_optional_of_ne (h : k ≠ n) (b : Option B) :
    select n get (optional k value b) = [] := select_repeated_of_ne h b.toList

theorem forall_repeated {P : Field → Prop} (h : ∀ b, P ⟨k, value b⟩) (bs : List B) :
    ∀ f ∈ repeated k value bs, P f := by
  intro f hf
  obtain ⟨b, -, rfl⟩ := List.mem_map.1 hf
  exact h b

theorem forall_optional {P : Field → Prop} (h : ∀ b, P ⟨k, value b⟩) (b : Option B) :
    ∀ f ∈ optional k value b, P f := forall_repeated h b.toList

end Select

theorem select_repeated_bytes (n : ℕ) (bs : List (List UInt8)) :
    select n Value.bytes? (repeated n .bytes bs) = bs := by
  have hget : ∀ data, Value.bytes? (.bytes data) = some (id data) := fun _ => rfl
  rw [select_repeated hget, List.map_id]

theorem select_optional_bytes (n : ℕ) (b : Option (List UInt8)) :
    select n Value.bytes? (optional n .bytes b) = b.toList :=
  select_repeated_bytes n b.toList

theorem getLast?_toList {A : Type*} (a : Option A) : a.toList.getLast? = a := by
  cases a <;> rfl

/-! ### The size of what is encoded -/

theorem length_le_encode_of_mem {fields : List Field} {f : Field} (h : f ∈ fields) :
    f.encode.length ≤ (encode fields).length := by
  induction fields with
  | nil => cases h
  | cons g fields ih =>
    rw [encode_cons, List.length_append]
    rcases List.mem_cons.1 h with rfl | h
    · exact Nat.le_add_right _ _
    · exact (ih h).trans (Nat.le_add_left _ _)

theorem Field.length_le_encode {f : Field} {data : List UInt8} (h : f.value = .bytes data) :
    data.length ≤ f.encode.length := by
  rw [Field.encode, h]
  simp only [List.length_append]
  omega

/-- The fields of an encoding of less than 4 GiB fit the format, if their numbers do. -/
theorem fits_of_length {fields : List Field} (hlen : (encode fields).length < 2 ^ 32)
    (h : ∀ f ∈ fields, f.number < 2 ^ 29 ∧ ∀ n, f.value = .varint n → n < 2 ^ 64) :
    ∀ f ∈ fields, f.Fits := by
  intro f hf
  refine ⟨(h f hf).1, (h f hf).2, ?_⟩
  intro data hdata
  exact ((Field.length_le_encode hdata).trans (length_le_encode_of_mem hf)).trans_lt hlen

end Protobuf

end Ocserv
