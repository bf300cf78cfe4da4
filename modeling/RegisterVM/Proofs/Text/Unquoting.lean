import RegisterVM.Text.Quoted

set_option autoImplicit false

namespace RegisterVM.Text

def hexValue (c : Char) : Option Nat :=
  if 48 ≤ c.toNat ∧ c.toNat < 58 then some (c.toNat - 48)
  else if 65 ≤ c.toNat ∧ c.toNat < 71 then some (c.toNat - 55)
  else if 97 ≤ c.toNat ∧ c.toNat < 103 then some (c.toNat - 87)
  else none

def unescape : Char → Option Char
  | '"' => some '"'
  | '\\' => some '\\'
  | 'n' => some '\n'
  | 't' => some '\t'
  | 'r' => some '\r'
  | 'e' => some '\x1b'
  | _ => none

def readBody : List Char → Option (List Char)
  | [] => none
  | ['"'] => some []
  | '"' :: _ :: _ => none
  | '\\' :: 'x' :: h :: l :: rest =>
    match hexValue h, hexValue l with
    | some hi, some lo => (Char.ofNat (16 * hi + lo) :: ·) <$> readBody rest
    | _, _ => none
  | '\\' :: c :: rest =>
    match unescape c with
    | some d => (d :: ·) <$> readBody rest
    | none => none
  | ['\\'] => none
  | c :: rest => (c :: ·) <$> readBody rest

def readLiteral (s : String) : Option String :=
  match s.toList with
  | '"' :: body => String.ofList <$> readBody body
  | _ => none

theorem readBody_plain {c : Char} (quote : c ≠ '"') (backslash : c ≠ '\\') (rest : List Char) :
    readBody (c :: rest) = (c :: ·) <$> readBody rest :=
  readBody.eq_7 c rest (fun h => absurd h quote) (fun _ _ h => absurd h quote)
    (fun _ _ _ h => absurd h backslash) (fun _ _ h => absurd h backslash) (fun h => absurd h backslash)

theorem hexValue_digit : ∀ d < 16,
    hexValue (if d < 10 then Char.ofNat (48 + d) else Char.ofNat (55 + d)) = some d := by
  decide

theorem hexDigits_upper_two (n : Nat) :
    hexDigits true 2 n =
      [(fun d => if d < 10 then Char.ofNat (48 + d) else Char.ofNat (55 + d)) (n / 16 % 16),
        (fun d => if d < 10 then Char.ofNat (48 + d) else Char.ofNat (55 + d)) (n % 16)] := by
  simp [hexDigits, List.range_succ]

theorem readBody_hex {n : Nat} (byte : n < 256) (rest : List Char) :
    readBody ('\\' :: 'x' :: (hexDigits true 2 n ++ rest)) = (Char.ofNat n :: ·) <$> readBody rest := by
  rw [hexDigits_upper_two]
  simp only [List.cons_append, List.nil_append]
  rw [readBody.eq_4, hexValue_digit _ (Nat.mod_lt _ (by omega)), hexValue_digit _ (Nat.mod_lt _ (by omega))]
  dsimp only
  rw [show 16 * (n / 16 % 16) + n % 16 = n by omega]

theorem readBody_inspectChar (c : Char) (rest : List Char) :
    readBody (inspectChar c ++ rest) = (c :: ·) <$> readBody rest := by
  unfold inspectChar
  split
  · rfl
  · rfl
  · rfl
  · rfl
  · rfl
  · next quote backslash _ _ _ =>
    split
    · next escape =>
      have : c = '\x1b' := by
        rw [← Char.ofNat_toNat c, show c.toNat = 27 by simpa using escape]
      subst this
      rfl
    · split
      · next control =>
        simp only [List.cons_append]
        rw [readBody_hex (by omega), Char.ofNat_toNat]
      · exact readBody_plain quote backslash rest

theorem readBody_inspected (cs rest : List Char) :
    readBody (cs.flatMap inspectChar ++ rest) = (cs ++ ·) <$> readBody rest := by
  induction cs with
  | nil => simp
  | cons c cs ih =>
    rw [List.flatMap_cons, List.append_assoc, readBody_inspectChar, ih, Functor.map_map]
    rfl

theorem readLiteral_inspectString (s : String) : readLiteral (inspectString s) = some s := by
  have body := readBody_inspected s.toList ['"']
  rw [readBody.eq_2] at body
  simp [readLiteral, inspectString, body]

theorem inspectString_injective {s t : String} (same : inspectString s = inspectString t) : s = t := by
  have back := readLiteral_inspectString t
  rwa [← same, readLiteral_inspectString, Option.some_inj] at back

def runesFrom (b : ByteArray) (i : Nat) : List Char :=
  if _ : i < b.size then
    match b.utf8DecodeChar? i with
    | some c => c :: runesFrom b (i + c.utf8Size)
    | none => '�' :: runesFrom b (i + 1)
  else []
termination_by b.size - i
decreasing_by
  · have := c.utf8Size_pos; omega
  · omega

def quoteBytes (b : ByteArray) : String := inspectString (String.ofList (runesFrom b 0))

theorem utf8DecodeChar?_append_shift (a b : ByteArray) (j : Nat) :
    (a ++ b).utf8DecodeChar? (a.size + j) = b.utf8DecodeChar? j := by
  rw [ByteArray.utf8DecodeChar?_eq_utf8DecodeChar?_extract,
    ByteArray.utf8DecodeChar?_eq_utf8DecodeChar?_extract (b := b), ByteArray.size_append,
    ByteArray.extract_append_size_add]

theorem runesFrom_append_shift (a b : ByteArray) (j : Nat) :
    runesFrom (a ++ b) (a.size + j) = runesFrom b j := by
  fun_induction runesFrom b j with
  | case1 j within c decoded ih =>
    rw [runesFrom, dif_pos (by rw [ByteArray.size_append]; omega), utf8DecodeChar?_append_shift,
      decoded]
    simp only [List.cons.injEq, true_and]
    rw [← ih, Nat.add_assoc]
  | case2 j within decoded ih =>
    rw [runesFrom, dif_pos (by rw [ByteArray.size_append]; omega), utf8DecodeChar?_append_shift,
      decoded]
    simp only [List.cons.injEq, true_and]
    rw [← ih, Nat.add_assoc]
  | case3 j beyond =>
    rw [runesFrom, dif_neg (by rw [ByteArray.size_append]; omega)]

theorem runesFrom_utf8Encode (l : List Char) : runesFrom l.utf8Encode 0 = l := by
  induction l with
  | nil => simp [runesFrom]
  | cons c l ih =>
    have parts : (c :: l).utf8Encode = [c].utf8Encode ++ l.utf8Encode := List.utf8Encode_cons
    have size : [c].utf8Encode.size = c.utf8Size := by simp [List.utf8Encode_singleton]
    rw [runesFrom, dif_pos (by rw [parts, ByteArray.size_append, size]; have := c.utf8Size_pos; omega),
      List.utf8DecodeChar?_utf8Encode_cons]
    dsimp only
    rw [parts, Nat.zero_add, ← size, ← Nat.add_zero [c].utf8Encode.size, runesFrom_append_shift, ih]

theorem quoteBytes_toUTF8 (s : String) : quoteBytes s.toUTF8 = inspectString s := by
  rw [quoteBytes, String.toUTF8_eq_toByteArray, ← String.utf8Encode_toList, runesFrom_utf8Encode,
    String.ofList_toList]

theorem quoted_bytes_read_back (s t : String) :
    (readLiteral (quoteBytes s.toUTF8)).map String.toUTF8 = some s.toUTF8 ∧
      (quoteBytes s.toUTF8 = quoteBytes t.toUTF8 → s.toUTF8 = t.toUTF8) := by
  rw [quoteBytes_toUTF8, quoteBytes_toUTF8, readLiteral_inspectString]
  exact ⟨rfl, fun same => by rw [inspectString_injective same]⟩

theorem invalid_byte_renders_as_replacement :
    quoteBytes ⟨#[0xFF]⟩ = quoteBytes ⟨#[0xEF, 0xBF, 0xBD]⟩ ∧
      (readLiteral (quoteBytes ⟨#[0xFF]⟩)).map String.toUTF8 ≠ some ⟨#[0xFF]⟩ := by
  have invalid : runesFrom ⟨#[0xFF]⟩ 0 = ['�'] := by
    rw [runesFrom, dif_pos (by decide), show (ByteArray.mk #[0xFF]).utf8DecodeChar? 0 = none by decide]
    dsimp only
    rw [runesFrom, dif_neg (by decide)]
  have replacement : runesFrom ⟨#[0xEF, 0xBF, 0xBD]⟩ 0 = ['�'] := by
    rw [runesFrom, dif_pos (by decide),
      show (ByteArray.mk #[0xEF, 0xBF, 0xBD]).utf8DecodeChar? 0 = some '�' by decide]
    dsimp only
    rw [runesFrom, dif_neg (by decide)]
  refine ⟨by rw [quoteBytes, quoteBytes, invalid, replacement], ?_⟩
  rw [quoteBytes, invalid, readLiteral_inspectString]
  decide

end RegisterVM.Text
