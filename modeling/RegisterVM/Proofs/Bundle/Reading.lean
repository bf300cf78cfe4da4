import Mathlib.Data.Nat.Digits.Lemmas
import Mathlib.Tactic.Ring
import RegisterVM.Bundle.Cbor

set_option autoImplicit false

namespace RegisterVM.Cbor

def bigEndianBytes (k n : Nat) : List UInt8 :=
  (List.range k).reverse.map fun i => (n / Nat.pow 256 i % 256).toUInt8

def argBytes (info : Nat) : Nat := if info < 24 then 0 else Nat.pow 2 (info - 24)

def headWith (major info n : Nat) : List UInt8 :=
  (major * 32 + info).toUInt8 :: bigEndianBytes (argBytes info) n

def shortestInfo (n : Nat) : Nat :=
  if n < 24 then n else if n < 256 then 24 else if n < 65536 then 25 else if n < Nat.pow 2 32 then 26
  else 27

def floatInfo (w : Nat) : Nat := if w = 16 then 25 else if w = 32 then 26 else 27

mutual

def Item.encode : Item → List UInt8
  | .unsigned n => head 0 n
  | .negative n => head 1 n
  | .bytes b => head 2 b.size ++ b.toList
  | .text b => head 3 b.size ++ b.toList
  | .array xs => head 4 xs.length ++ encodeList xs
  | .map kvs => head 5 kvs.length ++ encodeEntries kvs
  | .tag n c => head 6 n ++ c.encode
  | .simple n => head 7 n
  | .float w bits => headWith 7 (floatInfo w) bits

def encodeList : List Item → List UInt8
  | [] => []
  | x :: xs => x.encode ++ encodeList xs

def encodeEntries : List (Item × Item) → List UInt8
  | [] => []
  | (k, v) :: rest => k.encode ++ v.encode ++ encodeEntries rest

end

mutual

def Item.height : Item → Nat
  | .array xs => listHeight xs + 1
  | .map kvs => entriesHeight kvs + 1
  | .tag _ c => c.height
  | _ => 0

def listHeight : List Item → Nat
  | [] => 0
  | x :: xs => max x.height (listHeight xs)

def entriesHeight : List (Item × Item) → Nat
  | [] => 0
  | (k, v) :: rest => max (max k.height v.height) (entriesHeight rest)

end

mutual

def Item.Readable : Item → Prop
  | .unsigned n | .negative n => n < 2 ^ 64
  | .bytes b | .text b => b.size < 2 ^ 63
  | .array xs => xs.length ≤ maxItems ∧ ListReadable xs
  | .map kvs => kvs.length ≤ maxItems ∧ EntriesReadable kvs
  | .tag _ _ => False
  | .simple n => n < 24
  | .float w bits => (w = 16 ∧ bits < 2 ^ 16) ∨ (w = 32 ∧ bits < 2 ^ 32) ∨ (w = 64 ∧ bits < 2 ^ 64)

def ListReadable : List Item → Prop
  | [] => True
  | x :: xs => x.Readable ∧ ListReadable xs

def EntriesReadable : List (Item × Item) → Prop
  | [] => True
  | (k, v) :: rest => k.Readable ∧ v.Readable ∧ EntriesReadable rest

end

def flatEntries (kvs : List (Item × Item)) : List Item := kvs.flatMap fun kv => [kv.1, kv.2]

theorem encodeEntries_eq (kvs : List (Item × Item)) : encodeEntries kvs = encodeList (flatEntries kvs) := by
  induction kvs with
  | nil => rfl
  | cons kv rest ih => simp [encodeEntries, encodeList, flatEntries, ih]

theorem pairs_flatEntries (kvs : List (Item × Item)) : pairs (flatEntries kvs) = kvs := by
  induction kvs with
  | nil => rfl
  | cons kv rest ih => simpa [flatEntries, pairs] using ih

theorem listReadable_flatEntries (kvs : List (Item × Item)) :
    ListReadable (flatEntries kvs) ↔ EntriesReadable kvs := by
  induction kvs with
  | nil => simp [flatEntries, ListReadable, EntriesReadable]
  | cons kv rest ih =>
    simp only [flatEntries, List.flatMap_cons, List.cons_append, List.nil_append] at ih ⊢
    simp [ListReadable, EntriesReadable, ih]

theorem listHeight_flatEntries (kvs : List (Item × Item)) :
    listHeight (flatEntries kvs) = entriesHeight kvs := by
  induction kvs with
  | nil => rfl
  | cons kv rest ih =>
    simp only [flatEntries, List.flatMap_cons, List.cons_append, List.nil_append] at ih ⊢
    simp only [listHeight, entriesHeight, ih]
    omega

theorem length_flatEntries (kvs : List (Item × Item)) : (flatEntries kvs).length = 2 * kvs.length := by
  induction kvs with
  | nil => rfl
  | cons kv rest ih =>
    simp only [flatEntries, List.flatMap_cons, List.cons_append, List.nil_append] at ih ⊢
    simp only [List.length_cons, ih]
    omega

def Holds (data : ByteArray) (pos : Nat) (bs : List UInt8) : Prop :=
  pos ≤ data.size ∧ ∃ rest, data.data.toList.drop pos = bs ++ rest

theorem holds_whole (bs : List UInt8) : Holds ⟨bs.toArray⟩ 0 bs := ⟨Nat.zero_le _, [], by simp⟩

theorem Holds.size {data : ByteArray} {pos : Nat} {bs : List UInt8} (holds : Holds data pos bs) :
    pos + bs.length ≤ data.size := by
  obtain ⟨inside, rest, at_pos⟩ := holds
  have := congrArg List.length at_pos
  simp only [List.length_drop, Array.length_toList, List.length_append] at this
  have same : data.size = data.data.size := rfl
  omega

theorem holds_append {data : ByteArray} {pos : Nat} {a b : List UInt8} :
    Holds data pos (a ++ b) ↔ Holds data pos a ∧ Holds data (pos + a.length) b := by
  constructor
  · intro holds
    have size := holds.size
    obtain ⟨inside, rest, at_pos⟩ := holds
    refine ⟨⟨inside, b ++ rest, by rw [at_pos, List.append_assoc]⟩, by simp at size; omega, rest, ?_⟩
    rw [← List.drop_drop, at_pos, List.append_assoc, List.drop_left]
  · rintro ⟨⟨inside, rest, first⟩, ⟨-, rest', second⟩⟩
    refine ⟨inside, rest', ?_⟩
    have split := List.take_append_drop a.length (data.data.toList.drop pos)
    rw [List.drop_drop, second] at split
    rw [← split, first, List.take_left, List.append_assoc]

theorem Holds.get {data : ByteArray} {pos : Nat} {b : UInt8} {bs : List UInt8} (holds : Holds data pos (b :: bs)) :
    data.get! pos = b := by
  obtain ⟨-, rest, at_pos⟩ := holds
  have entry : data.data.toList[pos]? = some b := by
    have := congrArg (·[0]?) at_pos
    simpa [List.getElem?_drop] using this
  obtain ⟨d⟩ := data
  rw [Array.getElem?_toList] at entry
  simp [ByteArray.get!, getElem!_def, entry]

theorem Holds.tail {data : ByteArray} {pos : Nat} {b : UInt8} {bs : List UInt8} (holds : Holds data pos (b :: bs)) :
    Holds data (pos + 1) bs :=
  (holds_append.mp (show Holds data pos ([b] ++ bs) from holds)).2

theorem extract_of_holds {data : ByteArray} {pos : Nat} {b : Array UInt8} (holds : Holds data pos b.toList) :
    (data.extract pos (pos + b.size)).data = b := by
  obtain ⟨-, rest, at_pos⟩ := holds
  apply Array.ext'
  rw [ByteArray.data_extract, Array.toList_extract, List.extract_eq_take_drop, Nat.add_sub_cancel_left,
    at_pos, List.take_left' (by simp)]

def bytesValue (bs : List UInt8) : Nat := bs.foldl (fun acc b => acc * 256 + b.toNat) 0

theorem foldl_digits (bs : List UInt8) (acc : Nat) :
    bs.foldl (fun acc b => acc * 256 + b.toNat) acc = acc * 256 ^ bs.length + bytesValue bs := by
  induction bs generalizing acc with
  | nil => simp [bytesValue]
  | cons b bs ih =>
    simp only [List.foldl_cons, bytesValue, Nat.zero_mul, Nat.zero_add] at ih ⊢
    rw [ih, ih b.toNat, List.length_cons, pow_succ]
    ring

theorem bytesValue_bigEndianBytes (k n : Nat) : bytesValue (bigEndianBytes k n) = n % 256 ^ k := by
  induction k with
  | zero => simp [bigEndianBytes, bytesValue, Nat.mod_one]
  | succ k ih =>
    have cons : bigEndianBytes (k + 1) n = (n / 256 ^ k % 256).toUInt8 :: bigEndianBytes k n := by
      simp [bigEndianBytes, List.range_succ, Nat.pow_eq]
    have len : (bigEndianBytes k n).length = k := by simp [bigEndianBytes]
    rw [cons]
    unfold bytesValue
    rw [List.foldl_cons, foldl_digits, ih, len, Nat.mod_pow_succ]
    simp
    ring

theorem bigEndian_of_holds {data : ByteArray} {pos : Nat} {bs : List UInt8} (holds : Holds data pos bs) :
    bigEndian data pos bs.length = bytesValue bs := by
  have entries : (List.range bs.length).map (fun i => data.get! (pos + i)) = bs := by
    apply List.ext_getElem (by simp)
    intro i inRange _
    simp only [List.getElem_map, List.getElem_range]
    rw [List.length_map, List.length_range] at inRange
    have at_i := (holds_append.mp (show Holds data pos (bs.take i ++ bs.drop i) by
      rwa [List.take_append_drop])).2
    rw [List.drop_eq_getElem_cons inRange, List.length_take, Nat.min_eq_left inRange.le] at at_i
    exact at_i.get
  rw [bigEndian, bytesValue, ← entries, List.foldl_map]
  simp

theorem bigEndian_bigEndianBytes {data : ByteArray} {pos k n : Nat} (fits : n < 256 ^ k)
    (holds : Holds data pos (bigEndianBytes k n)) : bigEndian data pos k = n := by
  have len : (bigEndianBytes k n).length = k := by simp [bigEndianBytes]
  rw [← len, bigEndian_of_holds holds, bytesValue_bigEndianBytes, Nat.mod_eq_of_lt fits]

theorem length_bigEndianBytes (k n : Nat) : (bigEndianBytes k n).length = k := by
  simp [bigEndianBytes]

theorem length_headWith (major info n : Nat) : (headWith major info n).length = 1 + argBytes info := by
  simp [headWith, length_bigEndianBytes, Nat.add_comm]

theorem readHead_headWith {data : ByteArray} {pos major info n : Nat}
    (holds : Holds data pos (headWith major info n)) (major8 : major < 8)
    (valid : info < 24 ∧ n = info ∨ 24 ≤ info ∧ info ≤ 27 ∧ n < 256 ^ argBytes info)
    (notShortSimple : ¬(info = 24 ∧ major = 7 ∧ n < 32)) :
    readHead data pos = .ok ⟨major, info, n, pos + 1 + argBytes info⟩ := by
  have size := holds.size
  rw [length_headWith] at size
  have first : (data.get! pos).toNat = major * 32 + info := by
    rw [holds.get]
    simp
    omega
  have majorOf : (major * 32 + info) / 32 = major := by omega
  have infoOf : (major * 32 + info) % 32 = info := by omega
  unfold readHead
  simp only [ge_iff_le, first, majorOf, infoOf]
  rw [if_neg (by omega)]
  rcases valid with ⟨short, rfl⟩ | ⟨long, upTo, fits⟩
  · simp [short, argBytes]
    rfl
  · have bytes : argBytes info = 2 ^ (info - 24) := if_neg (by omega)
    have arg : bigEndian data (pos + 1) (2 ^ (info - 24)) = n := by
      rw [← bytes]
      exact bigEndian_bigEndianBytes fits holds.tail
    rw [bytes] at size
    simp [show ¬info < 24 by omega, upTo]
    have room : ¬data.size < pos + 1 + 2 ^ (info - 24) := by omega
    have notSimple : ¬((info = 24 ∧ major = 7) ∧ n < 32) := by tauto
    rw [if_neg room, arg, if_neg notSimple, bytes]
    rfl

theorem head_eq (major n : Nat) : head major n = headWith major (shortestInfo n) n := by
  unfold head headWith shortestInfo
  split_ifs <;> simp [argBytes, bigEndianBytes, Nat.pow_eq, *]

theorem readHead_head {data : ByteArray} {pos major n : Nat} (holds : Holds data pos (head major n))
    (major8 : major < 8) (small : n < 2 ^ 64) (simple : major = 7 → n < 24) :
    readHead data pos = .ok ⟨major, shortestInfo n, n, pos + (head major n).length⟩ := by
  rw [head_eq] at holds ⊢
  rw [length_headWith, ← Nat.add_assoc]
  apply readHead_headWith holds major8
  · unfold shortestInfo argBytes
    split_ifs <;> simp_all [Nat.pow_eq]
  · unfold shortestInfo
    split_ifs <;> omega

theorem shortestInfo_le (n : Nat) : shortestInfo n ≤ 27 := by
  unfold shortestInfo
  split_ifs <;> omega

theorem length_head_pos (major n : Nat) : 0 < (head major n).length := by
  rw [head_eq, length_headWith]
  omega

theorem ok_bind {ε α β : Type} (a : α) (f : α → Except ε β) : (Except.ok a >>= f) = f a := rfl

theorem ListReadable.of_mem {xs : List Item} (readable : ListReadable xs) {x : Item} (mem : x ∈ xs) :
    x.Readable := by
  induction xs with
  | nil => cases mem
  | cons y ys ih =>
    rcases List.mem_cons.mp mem with rfl | mem
    · exact readable.1
    · exact ih readable.2 mem

theorem height_le_listHeight {xs : List Item} {x : Item} (mem : x ∈ xs) : x.height ≤ listHeight xs := by
  induction xs with
  | nil => cases mem
  | cons y ys ih =>
    rw [listHeight]
    rcases List.mem_cons.mp mem with rfl | mem
    · exact Nat.le_max_left _ _
    · exact Nat.le_trans (ih mem) (Nat.le_max_right _ _)

theorem listReadable_iff {xs : List Item} : ListReadable xs ↔ ∀ x ∈ xs, x.Readable := by
  induction xs with
  | nil => simp [ListReadable]
  | cons x xs ih => simp [ListReadable, ih]

theorem entriesReadable_iff {kvs : List (Item × Item)} :
    EntriesReadable kvs ↔ ∀ kv ∈ kvs, kv.1.Readable ∧ kv.2.Readable := by
  induction kvs with
  | nil => simp [EntriesReadable]
  | cons kv rest ih =>
    obtain ⟨k, v⟩ := kv
    simp [EntriesReadable, ih, and_assoc]

theorem listHeight_le_iff {xs : List Item} {h : Nat} : listHeight xs ≤ h ↔ ∀ x ∈ xs, x.height ≤ h := by
  induction xs with
  | nil => simp [listHeight]
  | cons x xs ih => simp [listHeight, ih]

theorem entriesHeight_le_iff {kvs : List (Item × Item)} {h : Nat} :
    entriesHeight kvs ≤ h ↔ ∀ kv ∈ kvs, kv.1.height ≤ h ∧ kv.2.height ≤ h := by
  induction kvs with
  | nil => simp [entriesHeight]
  | cons kv rest ih =>
    obtain ⟨k, v⟩ := kv
    simp [entriesHeight, ih, and_assoc]

theorem slice_of_holds {data : ByteArray} {pos major : Nat} {b : Array UInt8} (holds : Holds data pos b.toList)
    (small : b.size < 2 ^ 63) : slice data major pos b.size = .ok b := by
  have size := holds.size
  unfold slice
  rw [if_neg (by rw [Nat.pow_eq]; omega), if_neg (by simp at size; omega), extract_of_holds holds]
  rfl

section Read

variable {data : ByteArray}

theorem readCount_encodeList {depth fuel : Nat} (xs : List Item)
    (each : ∀ x ∈ xs, ∀ pos, Holds data pos x.encode →
      readItem data depth fuel pos = .ok (x, pos + x.encode.length))
    {pos : Nat} (holds : Holds data pos (encodeList xs)) :
    readCount data depth fuel pos xs.length = .ok (xs, pos + (encodeList xs).length) := by
  induction xs generalizing pos with
  | nil => simp [readCount, encodeList]; rfl
  | cons x xs ih =>
    rw [encodeList] at holds
    obtain ⟨first, rest⟩ := holds_append.mp holds
    rw [List.length_cons, readCount, each x List.mem_cons_self pos first, ok_bind]
    dsimp only
    rw [ih (fun y mem => each y (List.mem_cons_of_mem x mem)) rest, ok_bind]
    simp [encodeList, Nat.add_assoc]
    rfl

theorem readItem_encode (fuel : Nat) : ∀ (it : Item) (depth pos : Nat), it.Readable →
    Holds data pos it.encode → depth + it.height ≤ maxDepth → it.height < fuel →
    readItem data depth fuel pos = .ok (it, pos + it.encode.length) := by
  induction fuel with
  | zero => intro it depth pos _ _ _ low; omega
  | succ fuel ih =>
    intro it depth pos readable holds shallow fueled
    cases it with
    | unsigned n =>
      simp only [Item.encode, Item.Readable] at holds readable ⊢
      rw [readItem, readHead_head holds (by decide) readable (by simp), ok_bind]
      rfl
    | negative n =>
      simp only [Item.encode, Item.Readable] at holds readable ⊢
      rw [readItem, readHead_head holds (by decide) readable (by simp), ok_bind]
      rfl
    | bytes b =>
      simp only [Item.encode, Item.Readable] at holds readable ⊢
      obtain ⟨first, rest⟩ := holds_append.mp holds
      rw [readItem, readHead_head first (by decide) (by omega) (by simp), ok_bind]
      dsimp only
      rw [if_neg (by simp; have := shortestInfo_le b.size; omega), slice_of_holds rest readable, ok_bind,
        pure_bind]
      simp [Nat.add_assoc]
      rfl
    | text b =>
      simp only [Item.encode, Item.Readable] at holds readable ⊢
      obtain ⟨first, rest⟩ := holds_append.mp holds
      rw [readItem, readHead_head first (by decide) (by omega) (by simp), ok_bind]
      dsimp only
      rw [if_neg (by simp; have := shortestInfo_le b.size; omega), slice_of_holds rest readable, ok_bind,
        pure_bind]
      simp [Nat.add_assoc]
      rfl
    | array xs =>
      simp only [Item.encode, Item.Readable, Item.height] at holds readable shallow fueled ⊢
      obtain ⟨count, each⟩ := readable
      obtain ⟨first, rest⟩ := holds_append.mp holds
      -- each element sits one level deeper and has less height than the array
      have readList := readCount_encodeList xs (fun x mem at_x holds_x =>
        ih x (depth + 1) at_x (each.of_mem mem) holds_x
          (by have := height_le_listHeight mem; omega) (by have := height_le_listHeight mem; omega)) rest
      rw [readItem, readHead_head first (by decide) (by unfold maxItems at count; omega) (by simp), ok_bind]
      simp only
      rw [if_neg (by omega), if_neg (by simp; have := shortestInfo_le xs.length; omega),
        if_neg (by unfold maxItems at count; simp only [Nat.pow_eq]; omega),
        if_neg (by unfold maxItems at count ⊢; omega)]
      simp only [beq_self_eq_true, if_true]
      rw [readList, ok_bind]
      simp [Nat.add_assoc]
      rfl
    | map kvs =>
      simp only [Item.encode, Item.Readable, Item.height] at holds readable shallow fueled ⊢
      obtain ⟨count, each⟩ := readable
      rw [encodeEntries_eq] at holds ⊢
      rw [← listReadable_flatEntries] at each
      rw [← listHeight_flatEntries] at shallow fueled
      obtain ⟨first, rest⟩ := holds_append.mp holds
      -- a map is read as the list of its keys and values, paired up afterwards
      have readList := readCount_encodeList (flatEntries kvs) (fun x mem at_x holds_x =>
        ih x (depth + 1) at_x (each.of_mem mem) holds_x
          (by have := height_le_listHeight mem; omega) (by have := height_le_listHeight mem; omega)) rest
      rw [readItem, readHead_head first (by decide) (by unfold maxItems at count; omega) (by simp), ok_bind]
      simp only
      rw [if_neg (by omega), if_neg (by simp; have := shortestInfo_le kvs.length; omega),
        if_neg (by unfold maxItems at count; simp only [Nat.pow_eq]; omega),
        if_neg (by unfold maxItems at count ⊢; omega)]
      simp only [show (5 == 4) = false from rfl, Bool.false_eq_true, if_false]
      rw [← length_flatEntries, readList, ok_bind]
      simp [Nat.add_assoc, pairs_flatEntries]
      rfl
    | tag n c => exact readable.elim
    | simple n =>
      simp only [Item.encode, Item.Readable] at holds readable ⊢
      have short : shortestInfo n = n := if_pos readable
      rw [readItem, readHead_head holds (by decide) (by omega) (fun _ => readable), ok_bind]
      simp only [short]
      rw [if_neg (by simp; omega), if_neg (by simp; omega), if_neg (by simp; omega)]
      rfl
    | float w bits =>
      simp only [Item.encode, Item.Readable] at holds readable ⊢
      rcases readable with ⟨rfl, fits⟩ | ⟨rfl, fits⟩ | ⟨rfl, fits⟩
      all_goals
        rw [readItem, readHead_headWith holds (by decide) (by simp [floatInfo, argBytes, Nat.pow_eq]; omega)
          (by simp [floatInfo]), ok_bind]
        simp [floatInfo, length_headWith, Nat.add_assoc]
        rfl

theorem length_encode_pos (it : Item) : 0 < it.encode.length := by
  cases it <;> simp [Item.encode, length_headWith, length_head_pos]

mutual

theorem height_le_length : (it : Item) → it.height ≤ it.encode.length
  | .array xs => by
    have := listHeight_le_length xs
    have := length_head_pos 4 xs.length
    simp only [Item.height, Item.encode, List.length_append]
    omega
  | .map kvs => by
    have := entriesHeight_le_length kvs
    have := length_head_pos 5 kvs.length
    simp only [Item.height, Item.encode, List.length_append]
    omega
  | .tag n c => by
    have := height_le_length c
    simp only [Item.height, Item.encode, List.length_append]
    omega
  | .unsigned _ | .negative _ | .bytes _ | .text _ | .simple _ | .float _ _ => by simp [Item.height]

theorem listHeight_le_length : (xs : List Item) → listHeight xs ≤ (encodeList xs).length
  | [] => by simp [listHeight]
  | x :: xs => by
    have := height_le_length x
    have := listHeight_le_length xs
    simp only [listHeight, encodeList, List.length_append]
    omega

theorem entriesHeight_le_length : (kvs : List (Item × Item)) → entriesHeight kvs ≤ (encodeEntries kvs).length
  | [] => by simp [entriesHeight]
  | (k, v) :: rest => by
    have := height_le_length k
    have := height_le_length v
    have := entriesHeight_le_length rest
    simp only [entriesHeight, encodeEntries, List.length_append]
    omega

end

theorem read_encode {it : Item} (readable : it.Readable) (shallow : it.height ≤ maxDepth) :
    read ⟨it.encode.toArray⟩ = .ok it := by
  have size : (⟨it.encode.toArray⟩ : ByteArray).size = it.encode.length := by simp [ByteArray.size]
  have tall := height_le_length it
  have nonempty := length_encode_pos it
  unfold read
  rw [size, if_neg (by simp only [beq_iff_eq]; omega),
    readItem_encode (it.encode.length + 1) it 0 0 readable (holds_whole _) (by omega) (by omega), ok_bind]
  simp
  rfl

end Read

end RegisterVM.Cbor
