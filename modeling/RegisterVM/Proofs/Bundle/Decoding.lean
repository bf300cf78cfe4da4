import RegisterVM.Bundle.Convert
import RegisterVM.Proofs.Bundle.Reading
import RegisterVM.Proofs.Float.Narrowing

set_option autoImplicit false

namespace RegisterVM.Bundle

open Cbor

def intItem (n : Int) : Item := if n ≥ 0 then .unsigned n.toNat else .negative (-1 - n).toNat

def textItem (s : String) : Item := .text s.toByteArray.data

def boolItem (b : Bool) : Item := .simple (if b then 21 else 20)

def nullItem : Item := .simple 22

def floatItem (bits : UInt64) : Item :=
  let (negative, e, frac) := Float.Format.double.fields bits.toNat
  if e == Float.Format.double.topExponent then
    if frac == 0 then .float 16 (if negative then 0xfc00 else 0x7c00) else .float 64 bits.toNat
  else
    match Float.Format.single.narrow? bits with
    | none => .float 64 bits.toNat
    | some single =>
      match Float.Format.half.narrow? bits with
      | some half => .float 16 half
      | none => .float 32 single

def paramsItem (a : ParamSpec) : Item :=
  .array [intItem a.req, intItem a.opt, boolItem a.rest, intItem a.post, intItem a.nkeys,
    boolItem a.kdict, boolItem a.block]

def literalItem (l : WireLiteral) : Item :=
  .array [intItem l.kind, intItem l.int, floatItem l.float, textItem l.str]

def handlerItem (h : WireHandler) : Item :=
  .array [intItem h.kind, intItem h.start, intItem h.stop, intItem h.target,
    match h.guards with
    | none => nullItem
    | some gs => .array (gs.map textItem)]

def lineItem (e : LineEntry) : Item :=
  .map [(textItem "PC", intItem e.pc), (textItem "Line", intItem e.line)]

def optionalEntry {α : Type} (key : Nat) (xs : List α) (item : α → Item) : List (Item × Item) :=
  if xs.isEmpty then [] else [(.unsigned key, .array (xs.map item))]

def procItem (p : WireProc) : Item :=
  let kids := p.children.attach.map fun c =>
    match c with
    | ⟨none, _⟩ => nullItem
    | ⟨some k, _mem⟩ => procItem k
  .map ([(.unsigned 1, match p.code with | some b => .bytes b | none => nullItem),
      (.unsigned 2, paramsItem p.params), (.unsigned 3, intItem p.nlocals),
      (.unsigned 4, intItem p.nregs)] ++
    optionalEntry 5 p.pool literalItem ++
    optionalEntry 6 p.syms textItem ++
    (if kids.isEmpty then [] else [(.unsigned 7, .array kids)]) ++
    optionalEntry 8 p.handlers handlerItem ++
    (if p.filename.isEmpty then [] else [(.unsigned 9, textItem p.filename)]) ++
    optionalEntry 10 p.lines lineItem)
termination_by sizeOf p
decreasing_by
  have h1 := List.sizeOf_lt_of_mem _mem
  have h2 : sizeOf (some k) = 1 + sizeOf k := rfl
  cases p
  simp_all only [WireProc.mk.sizeOf_spec]
  omega

def containerItem (root : WireProc) : Item :=
  .map [(.unsigned 1, textItem magic), (.unsigned 2, intItem version), (.unsigned 3, procItem root)]

theorem toList_loop (bs : ByteArray) (i : Nat) (r : List UInt8) :
    ByteArray.toList.loop bs i r = r.reverse ++ bs.data.toList.drop i := by
  fun_induction ByteArray.toList.loop bs i r with
  | case1 i r inside ih =>
    have inList : i < bs.data.toList.length := by simpa using inside
    rw [ih, List.drop_eq_getElem_cons inList]
    simp [ByteArray.get!, inside]
  | case2 i r outside =>
    rw [List.drop_eq_nil_of_le (by simpa using Nat.le_of_not_lt outside)]
    simp

theorem int_eq (n : Int) : int n = (intItem n).encode := by
  unfold int intItem
  split <;> rfl

theorem text_eq (s : String) : text s = (textItem s).encode := by
  have bytes : s.toUTF8.toList = s.toByteArray.data.toList := by
    rw [String.toUTF8_eq_toByteArray, ByteArray.toList, toList_loop]
    simp
  rw [text, bytes]
  rfl

theorem bool_eq (b : Bool) : bool b = (boolItem b).encode := by
  cases b <;> rfl

theorem null_eq : null = nullItem.encode := rfl

theorem float_eq (bits : UInt64) : float bits = (floatItem bits).encode := by
  unfold float floatItem
  generalize Float.Format.double.fields bits.toNat = fx
  obtain ⟨negative, e, frac⟩ := fx
  dsimp only
  split_ifs
  · rfl
  · rfl
  · rfl
  · -- a finite double: both sides choose the same width
    cases Float.Format.single.narrow? bits with
    | none => rfl
    | some single => cases Float.Format.half.narrow? bits <;> rfl

theorem encodeList_eq_flatten (xs : List Item) : encodeList xs = (xs.map Item.encode).flatten := by
  induction xs with
  | nil => rfl
  | cons x xs ih => simp [encodeList, ih]

theorem encodeList_map {α : Type} (xs : List α) (item : α → Item) :
    encodeList (xs.map item) = xs.flatMap fun x => (item x).encode := by
  rw [encodeList_eq_flatten, List.map_map, List.flatMap_def]
  rfl

def entryBytes (kv : Item × Item) : List UInt8 := kv.1.encode ++ kv.2.encode

theorem encodeEntries_eq_flatten (kvs : List (Item × Item)) :
    encodeEntries kvs = (kvs.map entryBytes).flatten := by
  induction kvs with
  | nil => rfl
  | cons kv rest ih => simp [encodeEntries, entryBytes, ih]

theorem encodeParams_eq (a : ParamSpec) : encodeParams a = (paramsItem a).encode := by
  simp [encodeParams, paramsItem, Item.encode, encodeList, int_eq, bool_eq]

theorem encodeLiteral_eq (l : WireLiteral) : encodeLiteral l = (literalItem l).encode := by
  simp [encodeLiteral, literalItem, Item.encode, encodeList, int_eq, float_eq, text_eq]

theorem encodeHandler_eq (h : WireHandler) : encodeHandler h = (handlerItem h).encode := by
  have texts : text = fun s => (textItem s).encode := funext text_eq
  cases guards : h.guards <;>
    simp [encodeHandler, handlerItem, guards, Item.encode, encodeList, int_eq, null_eq, encodeList_map, texts]

theorem encodeLine_eq (e : LineEntry) : encodeLine e = (lineItem e).encode := by
  simp [encodeLine, lineItem, Item.encode, encodeEntries, text_eq, int_eq]

theorem optionalList_eq {α : Type} (key : Nat) (xs : List α) (enc : α → List UInt8) (item : α → Item)
    (same : ∀ x, enc x = (item x).encode) :
    optionalList key xs enc = (optionalEntry key xs item).map entryBytes := by
  rw [show enc = fun x => (item x).encode from funext same]
  unfold optionalList optionalEntry
  split <;> simp [entryBytes, Item.encode, encodeList_map]

theorem map_encode_eq {E : List (List UInt8)} {K : List (Item × Item)} (same : E = K.map entryBytes) :
    head 5 E.length ++ E.flatten = (Item.map K).encode := by
  rw [same, Item.encode, encodeEntries_eq_flatten, List.length_map]

theorem children_entry (xs : List Item) :
    (if (xs.map Item.encode).isEmpty then [] else
      [head 0 7 ++ head 4 (xs.map Item.encode).length ++ (xs.map Item.encode).flatten]) =
      (if xs.isEmpty then [] else [(Item.unsigned 7, Item.array xs)]).map entryBytes := by
  rw [List.isEmpty_map]
  split <;> simp [entryBytes, Item.encode, encodeList_eq_flatten]

theorem filename_entry (name : String) :
    (if name.isEmpty then [] else [head 0 9 ++ text name]) =
      (if name.isEmpty then [] else [(Item.unsigned 9, textItem name)]).map entryBytes := by
  split <;> simp [entryBytes, Item.encode, text_eq]

theorem encodeProc_eq (p : WireProc) : encodeProc p = (procItem p).encode := by
  have kids : (p.children.attach.map fun c =>
        match c with
        | ⟨none, _⟩ => null
        | ⟨some k, _mem⟩ => encodeProc k) =
      (p.children.attach.map fun c =>
        match c with
        | ⟨none, _⟩ => nullItem
        | ⟨some k, _mem⟩ => procItem k).map Item.encode := by
    rw [List.map_map]
    apply List.map_congr_left
    rintro ⟨c, mem⟩ -
    cases c with
    | none => rfl
    | some k => exact encodeProc_eq k
  rw [encodeProc, procItem]
  erw [kids]
  apply map_encode_eq
  rw [optionalList_eq 5 p.pool _ literalItem encodeLiteral_eq, optionalList_eq 6 p.syms _ textItem text_eq,
    optionalList_eq 8 p.handlers _ handlerItem encodeHandler_eq, optionalList_eq 10 p.lines _ lineItem encodeLine_eq,
    children_entry, filename_entry]
  cases p.code with
  | none => simp [entryBytes, Item.encode, encodeParams_eq, int_eq, null_eq]
  | some b => simp [entryBytes, Item.encode, encodeParams_eq, int_eq, bytes]
termination_by sizeOf p
decreasing_by
  have h1 := List.sizeOf_lt_of_mem mem
  have h2 : sizeOf (some k) = 1 + sizeOf k := rfl
  cases p
  simp_all only [WireProc.mk.sizeOf_spec]
  omega

theorem encode_eq (root : WireProc) : encode root = ⟨(containerItem root).encode.toArray⟩ := by
  rw [encode, containerItem, Item.encode, encodeEntries_eq_flatten]
  simp [entryBytes, Item.encode, text_eq, int_eq, encodeProc_eq]

def Signed64 (n : Int) : Prop := -2 ^ 63 ≤ n ∧ n < 2 ^ 63

theorem fromUTF8_toByteArray (s : String) : String.fromUTF8? s.toByteArray = some s := by
  rw [String.fromUTF8?, dif_pos s.isValidUTF8]
  rfl

theorem view_intItem {n : Int} (fits : Signed64 n) (target : String) (wantsBytes : Bool) (fuel : Nat) :
    view target wantsBytes (fuel + 1) (intItem n) =
      .ok (if 0 ≤ n then ("positive integer", .uint n.toNat) else ("negative integer", .nint n false)) := by
  unfold intItem
  split
  · rfl
  · rw [view, if_pos (by unfold Signed64 at fits; simp only [Nat.pow_eq]; omega)]
    congr
    omega

theorem asInt_intItem {n : Int} (fits : Signed64 n) (target : String) : asInt target (intItem n) = .ok n := by
  unfold asInt
  rw [viewFuel, view_intItem fits, ok_bind]
  unfold Signed64 at fits
  by_cases sign : 0 ≤ n
  · rw [if_pos sign]
    dsimp only
    rw [if_pos (by simp only [Nat.pow_eq]; omega)]
    congr
    omega
  · rw [if_neg sign]
    dsimp only
    rw [if_pos (by simp only [Int.pow_eq]; omega)]
    rfl

theorem asByte_intItem {k : Nat} (fits : k < 256) (target : String) : asByte target (intItem k) = .ok k := by
  unfold asByte intItem
  rw [if_pos (by omega), viewFuel]
  show (if (k : Int).toNat < 256 then pure (k : Int).toNat else _) = _
  rw [if_pos (by omega)]
  rfl

theorem asBool_boolItem (b : Bool) : asBool (boolItem b) = .ok b := by
  cases b <;> rfl

theorem view_textItem (s target : String) (wantsBytes : Bool) (fuel : Nat) :
    view target wantsBytes (fuel + 1) (textItem s) = .ok ("UTF-8 text string", .text s) := by
  have same : (⟨s.toByteArray.data⟩ : ByteArray) = s.toByteArray := rfl
  rw [textItem, view]
  simp only [same, fromUTF8_toByteArray]
  rfl

theorem asText_textItem (s : String) : asText (textItem s) = .ok s := by
  unfold asText
  rw [viewFuel, view_textItem, ok_bind]
  rfl

theorem mapM_map_ok {α β ε : Type} {read : β → Except ε α} {item : α → β} (xs : List α)
    (same : ∀ x ∈ xs, read (item x) = .ok x) : (xs.map item).mapM read = .ok xs := by
  induction xs with
  | nil => rfl
  | cons x xs ih =>
    rw [List.map_cons, List.mapM_cons, same x (by simp), ok_bind,
      ih (fun y mem => same y (List.mem_cons_of_mem x mem))]
    rfl

theorem asList_array {α : Type} {elem : Item → DecodeM α} {item : α → Item} (target : String) (xs : List α)
    (same : ∀ x ∈ xs, elem (item x) = .ok x) : asList target elem (.array (xs.map item)) = .ok (some xs) := by
  unfold asList
  rw [viewFuel, view, pure_bind]
  dsimp only
  rw [mapM_map_ok xs same, ok_bind]
  rfl

theorem asRecord_array {σ : Type} (target : String) (zero : σ) (fields : List String)
    (build : List Item → DecodeM σ) {xs : List Item} (fits : xs.length = fields.length) :
    asRecord target zero fields build (.array xs) = build xs := by
  unfold asRecord
  rw [viewFuel, view, pure_bind]
  dsimp only
  rw [if_pos (by simp [fits])]

theorem asFloat_float {w n : Nat} {bits : UInt64}
    (widens : (w = 16 ∧ Float.Format.half.widen n = bits) ∨ (w = 32 ∧ Float.Format.single.widen n = bits) ∨
      (w = 64 ∧ n.toUInt64 = bits)) :
    asFloat (.float w n) = .ok bits := by
  rcases widens with ⟨rfl, widened⟩ | ⟨rfl, widened⟩ | ⟨rfl, widened⟩
  all_goals
    rw [← widened]
    rfl

theorem asFloat_floatItem (bits : UInt64) : asFloat (floatItem bits) = .ok bits := by
  unfold floatItem
  rcases fx : Float.Format.double.fields bits.toNat with ⟨negative, e, frac⟩
  dsimp only
  by_cases top : e = Float.Format.double.topExponent
  · rw [if_pos (by simpa using top)]
    by_cases zero : frac = 0
    · -- an infinity, written in 16 bits
      rw [if_pos (by simpa using zero)]
      have widened := Float.Format.widen_half_infinity (x := bits) (by rw [fx]; exact top) (by rw [fx]; exact zero)
      rw [fx] at widened
      exact asFloat_float (Or.inl ⟨rfl, widened⟩)
    · -- a NaN keeps all 64 bits
      rw [if_neg (by simpa using zero)]
      exact asFloat_float (Or.inr (Or.inr ⟨rfl, by simp⟩))
  · rw [if_neg (by simpa using top)]
    cases single : Float.Format.single.narrow? bits with
    | none => exact asFloat_float (Or.inr (Or.inr ⟨rfl, by simp⟩))
    | some n =>
      cases half : Float.Format.half.narrow? bits with
      | none => exact asFloat_float (Or.inr (Or.inl ⟨rfl, Float.Format.widen_narrow Float.Format.single_sound single⟩))
      | some h => exact asFloat_float (Or.inl ⟨rfl, Float.Format.widen_narrow Float.Format.half_sound half⟩)

@[simp] theorem field_ok {α : Type} (target name : String) (x : α) : field target name (.ok x) = .ok x := rfl

structure ParamsFit (a : ParamSpec) : Prop where
  req : Signed64 a.req
  opt : Signed64 a.opt
  post : Signed64 a.post
  nkeys : Signed64 a.nkeys

theorem asParams_paramsItem {a : ParamSpec} (fits : ParamsFit a) : asParams (paramsItem a) = .ok a := by
  unfold asParams paramsItem
  rw [asRecord_array _ _ _ _ rfl]
  simp only [field_ok, asInt_intItem fits.req, asInt_intItem fits.opt, asInt_intItem fits.post,
    asInt_intItem fits.nkeys, asBool_boolItem, ok_bind]
  rfl

structure WireLiteral.Fits (l : WireLiteral) : Prop where
  kind : l.kind < 256
  int : Signed64 l.int
  str : l.str.utf8ByteSize < 2 ^ 63

theorem asLiteral_literalItem {l : WireLiteral} (fits : l.Fits) : asLiteral (literalItem l) = .ok l := by
  unfold asLiteral literalItem
  rw [asRecord_array _ _ _ _ rfl]
  simp only [field_ok, asByte_intItem fits.kind, asInt_intItem fits.int, asFloat_floatItem, asText_textItem,
    ok_bind]
  rfl

structure WireHandler.Fits (h : WireHandler) : Prop where
  kind : h.kind < 256
  start : Signed64 h.start
  stop : Signed64 h.stop
  target : Signed64 h.target
  guards : ∀ gs, h.guards = some gs → gs.length ≤ maxItems ∧ ∀ g ∈ gs, g.utf8ByteSize < 2 ^ 63

theorem asHandler_handlerItem {h : WireHandler} (fits : h.Fits) : asHandler (handlerItem h) = .ok h := by
  have guards : asList "[]string" asText (match h.guards with
      | none => nullItem
      | some gs => .array (gs.map textItem)) = .ok h.guards := by
    cases h.guards with
    | none => rfl
    | some gs => exact asList_array _ gs fun g _ => asText_textItem g
  unfold asHandler handlerItem
  rw [asRecord_array _ _ _ _ rfl]
  simp only [field_ok, asByte_intItem fits.kind, asInt_intItem fits.start, asInt_intItem fits.stop,
    asInt_intItem fits.target, guards, ok_bind]
  rfl

theorem forIn_yield {α β ε : Type} (xs : List α) (body : α → β → Except ε (ForInStep β)) (step : β → α → Except ε β)
    (same : ∀ x b, body x b = ForInStep.yield <$> step b x) (init : β) :
    forIn xs init body = xs.foldlM step init := by
  induction xs generalizing init with
  | nil => rfl
  | cons x xs ih =>
    rw [List.forIn_cons, List.foldlM_cons, same]
    cases step init x with
    | error e => rfl
    | ok b => exact ih b

def fieldsStep {σ : Type} (target : String) (fields : List Field) (set : Nat → Item → σ → DecodeM σ)
    (state : List Nat × σ) (kv : Item × Item) : DecodeM (List Nat × σ) := do
  match fieldFor fields state.1 (← keyOf kv.1) with
  | some i => pure (i :: state.1, ← inField (target ++ "." ++ (fields.getD i ⟨"", none⟩).name) (set i kv.2 state.2))
  | none => pure state

theorem asFields_map {σ : Type} (target : String) (fields : List Field) (set : Nat → Item → σ → DecodeM σ)
    (zero : σ) (kvs : List (Item × Item)) :
    asFields target fields set zero (.map kvs) = Prod.snd <$> kvs.foldlM (fieldsStep target fields set) ([], zero) := by
  unfold asFields
  rw [viewFuel, view, pure_bind]
  dsimp only
  rw [forIn_yield kvs _ (fieldsStep target fields set) ?same]
  · rfl
  · intro kv state
    unfold fieldsStep
    cases keyOf kv.1 with
    | error e => rfl
    | ok k =>
      simp only [ok_bind]
      cases fieldFor fields state.1 k with
      | none => rfl
      | some i =>
        dsimp only
        cases inField (target ++ "." ++ (fields.getD i ⟨"", none⟩).name) (set i kv.2 state.2) <;> rfl

theorem keyOf_unsigned {n : Nat} (small : n < 2 ^ 63) : keyOf (.unsigned n) = .ok (.number n) := by
  simp only [keyOf]
  rw [if_pos (by simpa only [Nat.pow_eq] using small)]
  rfl

theorem numbered_getD {n i : Nat} (lt : i < n) :
    (numbered n).getD i ⟨"", none⟩ = { name := toString (i + 1), number := some ((i : Int) + 1) } := by
  simp [numbered, lt]

theorem fieldFor_numbered {n i : Nat} {seen : List Nat} (lt : i < n) (fresh : i ∉ seen) :
    fieldFor (numbered n) seen (.number ((i + 1 : Nat) : Int)) = some i := by
  have length : (numbered n).length = n := by simp [numbered]
  unfold fieldFor
  rw [length, List.find?_eq_some_iff_getElem]
  refine ⟨?_, i, by simpa using lt, by simp, fun j before => ?_⟩
  · rw [numbered_getD lt]
    simp [fresh]
  · have inside : j < n := by omega
    rw [List.getElem_range, numbered_getD inside]
    simp
    omega

theorem fieldsStep_numbered {σ : Type} (target : String) (n : Nat) (set : Nat → Item → σ → DecodeM σ)
    {seen : List Nat} {acc : σ} {i : Nat} (lt : i < n) (fresh : i ∉ seen) (small : i + 1 < 2 ^ 63) (v : Item) :
    fieldsStep target (numbered n) set (seen, acc) (.unsigned (i + 1), v) =
      (fun a => (i :: seen, a)) <$> inField (target ++ "." ++ toString (i + 1)) (set i v acc) := by
  unfold fieldsStep
  rw [keyOf_unsigned small, ok_bind]
  dsimp only
  rw [fieldFor_numbered lt fresh]
  dsimp only
  rw [numbered_getD lt]
  cases inField (target ++ "." ++ toString (i + 1)) (set i v acc) <;> rfl

theorem foldlM_field_bind {σ β : Type} {target : String} {n : Nat} {set : Nat → Item → σ → DecodeM σ}
    {seen : List Nat} {acc acc' : σ} {i : Nat} {seg : List (Item × Item)} {rest : List Nat × σ → DecodeM β}
    {r : DecodeM β} (lt : i < n) (small : n < 2 ^ 63)
    (shape : (∃ v, seg = [(.unsigned (i + 1), v)] ∧ set i v acc = .ok acc') ∨ (seg = [] ∧ acc' = acc))
    (below : ∀ j ∈ seen, j < i) (next : ∀ seen', (∀ j ∈ seen', j < i + 1) → rest (seen', acc') = r) :
    (seg.foldlM (fieldsStep target (numbered n) set) (seen, acc) >>= rest) = r := by
  rcases shape with ⟨v, rfl, sets⟩ | ⟨rfl, rfl⟩
  · have fresh : i ∉ seen := fun mem => by have := below i mem; omega
    rw [List.foldlM_cons, fieldsStep_numbered target n set lt fresh (by omega), sets]
    refine next (i :: seen) fun j mem => ?_
    rcases List.mem_cons.mp mem with rfl | mem
    · omega
    · have := below j mem
      omega
  · exact next seen fun j mem => by have := below j mem; omega

theorem optionalEntry_shape {α σ : Type} {key : Nat} {xs : List α} {item : α → Item} {set : Item → σ → DecodeM σ}
    {acc acc' : σ} (sets : set (.array (xs.map item)) acc = .ok acc') (unset : xs = [] → acc' = acc) :
    (∃ v, optionalEntry key xs item = [(.unsigned key, v)] ∧ set v acc = .ok acc') ∨
      (optionalEntry key xs item = [] ∧ acc' = acc) := by
  unfold optionalEntry
  cases xs with
  | nil => exact Or.inr ⟨rfl, unset rfl⟩
  | cons x xs => exact Or.inl ⟨_, rfl, sets⟩

theorem keyOf_textItem (s : String) : keyOf (textItem s) = .ok (.name s) := by
  have same : (⟨s.toByteArray.data⟩ : ByteArray) = s.toByteArray := rfl
  simp only [keyOf, textItem, same, fromUTF8_toByteArray]
  rfl

structure LineFits (e : LineEntry) : Prop where
  pc : Signed64 e.pc
  line : Signed64 e.line

theorem asLine_lineItem {e : LineEntry} (fits : LineFits e) : asLine (lineItem e) = .ok e := by
  have first : fieldFor [{ name := "PC" }, { name := "Line" }] [] (.name "PC") = some 0 := by decide
  unfold asLine lineItem
  rw [asFields_map]
  simp only [List.foldlM_cons, List.foldlM_nil, fieldsStep, keyOf_textItem, ok_bind, first,
    asInt_intItem fits.pc, asInt_intItem fits.line]
  rfl

def codeItem : Option (Array UInt8) → Item
  | some b => .bytes b
  | none => nullItem

def childItem : Option WireProc → Item
  | some k => procItem k
  | none => nullItem

def procEntries (w : WireProc) : List (Item × Item) :=
  [(.unsigned 1, codeItem w.code)] ++ [(.unsigned 2, paramsItem w.params)] ++
    [(.unsigned 3, intItem w.nlocals)] ++ [(.unsigned 4, intItem w.nregs)] ++
    optionalEntry 5 w.pool literalItem ++
    optionalEntry 6 w.syms textItem ++
    optionalEntry 7 w.children childItem ++
    optionalEntry 8 w.handlers handlerItem ++
    (if w.filename.isEmpty then [] else [(.unsigned 9, textItem w.filename)]) ++
    optionalEntry 10 w.lines lineItem

theorem procItem_eq (w : WireProc) : procItem w = .map (procEntries w) := by
  have kids : (w.children.attach.map fun c =>
      match c with
      | ⟨none, _⟩ => nullItem
      | ⟨some k, _mem⟩ => procItem k) = w.children.map childItem := by
    rw [← List.attach_map_val (f := childItem)]
    apply List.map_congr_left
    rintro ⟨c, mem⟩ -
    cases c <;> rfl
  rw [procItem, procEntries]
  erw [kids]
  simp only [List.isEmpty_map]
  cases w.code <;> rfl

theorem textEntry_shape {σ : Type} {key : Nat} {s : String} {set : Item → σ → DecodeM σ} {acc acc' : σ}
    (sets : set (textItem s) acc = .ok acc') (unset : s = "" → acc' = acc) :
    (∃ v, (if s.isEmpty then [] else [(Item.unsigned key, textItem s)]) = [(Item.unsigned key, v)] ∧
        set v acc = .ok acc') ∨
      ((if s.isEmpty then [] else [(Item.unsigned key, textItem s)]) = [] ∧ acc' = acc) := by
  by_cases empty : s.isEmpty
  · rw [if_pos empty]
    exact Or.inr ⟨rfl, unset (String.isEmpty_iff.mp empty)⟩
  · rw [if_neg empty]
    exact Or.inl ⟨_, rfl, sets⟩

structure WireProc.Flat (w : WireProc) : Prop where
  code : ∀ b, w.code = some b → b.size < 2 ^ 63
  params : ParamsFit w.params
  nlocals : Signed64 w.nlocals
  nregs : Signed64 w.nregs
  pool : w.pool.length ≤ maxItems ∧ ∀ l ∈ w.pool, l.Fits
  syms : w.syms.length ≤ maxItems ∧ ∀ s ∈ w.syms, s.utf8ByteSize < 2 ^ 63
  children : w.children.length ≤ maxItems
  handlers : w.handlers.length ≤ maxItems ∧ ∀ h ∈ w.handlers, h.Fits
  filename : w.filename.utf8ByteSize < 2 ^ 63
  lines : w.lines.length ≤ maxItems ∧ ∀ e ∈ w.lines, LineFits e

theorem asProc_of_children {fuel : Nat} {w : WireProc} (flat : w.Flat)
    (kids : ∀ c ∈ w.children, asChild fuel (childItem c) = .ok c) : asProc (fuel + 1) (procItem w) = .ok w := by
  have code : asBytes (codeItem w.code) = .ok w.code := by
    cases w.code <;> rfl
  have pool := asList_array "[]bundle.literal" w.pool fun l mem => asLiteral_literalItem (flat.pool.2 l mem)
  have syms := asList_array "[]string" w.syms fun s _ => asText_textItem s
  have children := asList_array "[]*bundle.irep" w.children kids
  have handlers :=
    asList_array "[]bundle.handler" w.handlers fun h mem => asHandler_handlerItem (flat.handlers.2 h mem)
  have lines := asList_array "[]vm.LineEntry" w.lines fun e mem => asLine_lineItem (flat.lines.2 e mem)
  rw [asProc, procItem_eq, procEntries, asFields_map, map_eq_pure_bind]
  simp only [List.foldlM_append, bind_assoc]
  -- the ten fields in key order, each read once or left at its default
  refine foldlM_field_bind (by decide) (by decide)
    (Or.inl ⟨_, rfl, by rw [setProcField, code]; rfl⟩) (by simp) fun s₁ b₁ => ?_
  dsimp only
  refine foldlM_field_bind (by decide) (by decide)
    (Or.inl ⟨_, rfl, by rw [setProcField, asParams_paramsItem flat.params]; rfl⟩) b₁ fun s₂ b₂ => ?_
  dsimp only
  refine foldlM_field_bind (by decide) (by decide)
    (Or.inl ⟨_, rfl, by rw [setProcField, asInt_intItem flat.nlocals]; rfl⟩) b₂ fun s₃ b₃ => ?_
  dsimp only
  refine foldlM_field_bind (by decide) (by decide)
    (Or.inl ⟨_, rfl, by rw [setProcField, asInt_intItem flat.nregs]; rfl⟩) b₃ fun s₄ b₄ => ?_
  dsimp only
  refine foldlM_field_bind (by decide) (by decide)
    (optionalEntry_shape (by rw [setProcField, pool]; rfl) fun h => by rw [h]; rfl) b₄ fun s₅ b₅ => ?_
  dsimp only
  refine foldlM_field_bind (by decide) (by decide)
    (optionalEntry_shape (by rw [setProcField, syms]; rfl) fun h => by rw [h]; rfl) b₅ fun s₆ b₆ => ?_
  dsimp only
  refine foldlM_field_bind (by decide) (by decide)
    (optionalEntry_shape (by rw [setProcField, children]; rfl) fun h => by rw [h]; rfl) b₆ fun s₇ b₇ => ?_
  dsimp only
  refine foldlM_field_bind (by decide) (by decide)
    (optionalEntry_shape (by rw [setProcField, handlers]; rfl) fun h => by rw [h]; rfl) b₇ fun s₈ b₈ => ?_
  dsimp only
  refine foldlM_field_bind (by decide) (by decide)
    (textEntry_shape (by rw [setProcField, asText_textItem]; rfl) fun h => by rw [h]) b₈ fun s₉ b₉ => ?_
  dsimp only
  refine foldlM_field_bind (by decide) (by decide)
    (optionalEntry_shape (by unfold setProcField; rw [lines]; rfl) fun h => by rw [h]; rfl) b₉ fun s₁₀ b₁₀ => ?_
  -- a recursive structure has no eta, so the record is taken apart
  cases w
  rfl

def WireProc.Fits : Nat → WireProc → Prop
  | 0, w => w.Flat ∧ ∀ c ∈ w.children, c = none
  | k + 1, w => w.Flat ∧ ∀ c ∈ w.children, ∀ q, c = some q → WireProc.Fits k q

theorem asChild_of_asProc {fuel : Nat} {q : WireProc} (read : asProc fuel (procItem q) = .ok q) :
    asChild fuel (childItem (some q)) = .ok (some q) := by
  obtain ⟨kvs, isMap⟩ : ∃ kvs, procItem q = .map kvs := ⟨_, procItem_eq q⟩
  rw [isMap] at read
  rw [childItem, isMap]
  unfold asChild
  rw [read]
  rfl

theorem asChild_none (fuel : Nat) : asChild fuel (childItem none) = .ok none := by
  unfold childItem asChild
  rfl

theorem asProc_procItem (k : Nat) :
    ∀ {fuel : Nat} {w : WireProc}, w.Fits k → k < fuel → asProc fuel (procItem w) = .ok w := by
  induction k with
  | zero =>
    rintro (_ | fuel) w fits lt
    · omega
    · exact asProc_of_children fits.1 fun c mem => by rw [fits.2 c mem, asChild_none]
  | succ k ih =>
    rintro (_ | fuel) w fits lt
    · omega
    · refine asProc_of_children fits.1 fun c mem => ?_
      cases c with
      | none => exact asChild_none fuel
      | some q => exact asChild_of_asProc (ih (fits.2 _ mem q rfl) (by omega))

theorem containerItem_eq (root : WireProc) :
    containerItem root = .map ([(.unsigned 1, textItem magic)] ++ [(.unsigned 2, intItem version)] ++
      [(.unsigned 3, procItem root)]) := rfl

theorem asContainer_containerItem {root : WireProc} {k : Nat} (fits : root.Fits k) (shallow : k ≤ maxDepth) :
    asContainer (containerItem root) = .ok { magic := magic, version := version, root := some root } := by
  have proc := asChild_of_asProc (asProc_procItem k fits (show k < maxDepth + 1 by omega))
  rw [asContainer, containerItem_eq, asFields_map, map_eq_pure_bind]
  simp only [List.foldlM_append, bind_assoc]
  refine foldlM_field_bind (by decide) (by decide)
    (Or.inl ⟨_, rfl, by dsimp only; rw [asText_textItem]; rfl⟩) (by simp) fun s₁ b₁ => ?_
  refine foldlM_field_bind (by decide) (by decide)
    (Or.inl ⟨_, rfl, by dsimp only; rw [asInt_intItem (by unfold Signed64 version; norm_num)]; rfl⟩) b₁ fun s₂ b₂ => ?_
  refine foldlM_field_bind (by decide) (by decide)
    (Or.inl ⟨_, rfl, by dsimp only; rw [show procItem root = childItem (some root) from rfl, proc]; rfl⟩) b₂
    fun s₃ b₃ => ?_
  rfl

theorem readable_array {xs : List Item} : (Item.array xs).Readable ↔ xs.length ≤ maxItems ∧ ∀ x ∈ xs, x.Readable := by
  rw [Item.Readable, listReadable_iff]

theorem readable_map {kvs : List (Item × Item)} :
    (Item.map kvs).Readable ↔ kvs.length ≤ maxItems ∧ ∀ kv ∈ kvs, kv.1.Readable ∧ kv.2.Readable := by
  rw [Item.Readable, entriesReadable_iff]

theorem height_array_le {xs : List Item} {h : Nat} : (Item.array xs).height ≤ h + 1 ↔ ∀ x ∈ xs, x.height ≤ h := by
  rw [Item.height, Nat.add_le_add_iff_right, listHeight_le_iff]

theorem height_map_le {kvs : List (Item × Item)} {h : Nat} :
    (Item.map kvs).height ≤ h + 1 ↔ ∀ kv ∈ kvs, kv.1.height ≤ h ∧ kv.2.height ≤ h := by
  rw [Item.height, Nat.add_le_add_iff_right, entriesHeight_le_iff]

theorem intItem_readable {n : Int} (fits : Signed64 n) : (intItem n).Readable := by
  unfold intItem
  unfold Signed64 at fits
  split
  · simp only [Item.Readable]
    omega
  · simp only [Item.Readable]
    omega

theorem textItem_readable {s : String} (small : s.utf8ByteSize < 2 ^ 63) : (textItem s).Readable := by
  simpa [textItem, Item.Readable, ← String.size_toByteArray] using small

theorem boolItem_readable (b : Bool) : (boolItem b).Readable := by
  cases b <;> simp [boolItem, Item.Readable]

theorem floatItem_readable (bits : UInt64) : (floatItem bits).Readable := by
  unfold floatItem
  rcases Float.Format.double.fields bits.toNat with ⟨negative, e, frac⟩
  dsimp only
  by_cases top : e = Float.Format.double.topExponent
  · rw [if_pos (by simpa using top)]
    by_cases zero : frac = 0
    · rw [if_pos (by simpa using zero)]
      cases negative <;> simp [Item.Readable]
    · rw [if_neg (by simpa using zero)]
      exact Or.inr (Or.inr ⟨rfl, UInt64.toNat_lt bits⟩)
  · rw [if_neg (by simpa using top)]
    cases single : Float.Format.single.narrow? bits with
    | none => exact Or.inr (Or.inr ⟨rfl, UInt64.toNat_lt bits⟩)
    | some n =>
      cases half : Float.Format.half.narrow? bits with
      | none => exact Or.inr (Or.inl ⟨rfl, Float.Format.narrow?_lt Float.Format.single_sound single⟩)
      | some h => exact Or.inl ⟨rfl, Float.Format.narrow?_lt Float.Format.half_sound half⟩

theorem array_readable {α : Type} {xs : List α} {item : α → Item} (short : xs.length ≤ maxItems)
    (each : ∀ x ∈ xs, (item x).Readable) : (Item.array (xs.map item)).Readable :=
  readable_array.mpr ⟨by simpa using short, by simpa using each⟩

theorem paramsItem_readable {a : ParamSpec} (fits : ParamsFit a) : (paramsItem a).Readable := by
  rw [paramsItem, readable_array]
  refine ⟨by simp [maxItems], ?_⟩
  simp [intItem_readable fits.req, intItem_readable fits.opt, intItem_readable fits.post,
    intItem_readable fits.nkeys, boolItem_readable]

theorem literalItem_readable {l : WireLiteral} (fits : l.Fits) : (literalItem l).Readable := by
  rw [literalItem, readable_array]
  refine ⟨by simp [maxItems], ?_⟩
  simp [intItem_readable (show Signed64 (l.kind : Int) by unfold Signed64; have := fits.kind; omega),
    intItem_readable fits.int, floatItem_readable, textItem_readable fits.str]

theorem handlerItem_readable {h : WireHandler} (fits : h.Fits) : (handlerItem h).Readable := by
  have kind : Signed64 (h.kind : Int) := by
    unfold Signed64
    have := fits.kind
    omega
  have guards : (match h.guards with
      | none => nullItem
      | some gs => .array (gs.map textItem)).Readable := by
    cases known : h.guards with
    | none => simp [nullItem, Item.Readable]
    | some gs =>
      obtain ⟨short, each⟩ := fits.guards gs known
      exact array_readable short fun g mem => textItem_readable (each g mem)
  rw [handlerItem, readable_array]
  refine ⟨by simp [maxItems], ?_⟩
  simp [intItem_readable kind, intItem_readable fits.start, intItem_readable fits.stop,
    intItem_readable fits.target, guards]

theorem lineItem_readable {e : LineEntry} (fits : LineFits e) : (lineItem e).Readable := by
  rw [lineItem, readable_map]
  refine ⟨by simp [maxItems], ?_⟩
  simp [textItem_readable (show "PC".utf8ByteSize < 2 ^ 63 by decide),
    textItem_readable (show "Line".utf8ByteSize < 2 ^ 63 by decide), intItem_readable fits.pc,
    intItem_readable fits.line]

theorem mem_optionalEntry {α : Type} {key : Nat} {xs : List α} {item : α → Item} {kv : Item × Item}
    (mem : kv ∈ optionalEntry key xs item) : kv = (.unsigned key, .array (xs.map item)) := by
  unfold optionalEntry at mem
  split at mem
  · cases mem
  · exact List.mem_singleton.mp mem

theorem procEntries_forall {P : Item × Item → Prop} {w : WireProc}
    (code : P (.unsigned 1, codeItem w.code)) (params : P (.unsigned 2, paramsItem w.params))
    (nlocals : P (.unsigned 3, intItem w.nlocals)) (nregs : P (.unsigned 4, intItem w.nregs))
    (pool : P (.unsigned 5, .array (w.pool.map literalItem))) (syms : P (.unsigned 6, .array (w.syms.map textItem)))
    (children : P (.unsigned 7, .array (w.children.map childItem)))
    (handlers : P (.unsigned 8, .array (w.handlers.map handlerItem)))
    (filename : P (.unsigned 9, textItem w.filename)) (lines : P (.unsigned 10, .array (w.lines.map lineItem))) :
    ∀ kv ∈ procEntries w, P kv := by
  intro kv mem
  simp only [procEntries, List.mem_append, List.mem_singleton] at mem
  rcases mem with (((((((((rfl | rfl) | rfl) | rfl) | mem) | mem) | mem) | mem) | mem) | mem)
  · exact code
  · exact params
  · exact nlocals
  · exact nregs
  · rwa [mem_optionalEntry mem]
  · rwa [mem_optionalEntry mem]
  · rwa [mem_optionalEntry mem]
  · rwa [mem_optionalEntry mem]
  · split at mem
    · cases mem
    · rwa [List.mem_singleton.mp mem]
  · rwa [mem_optionalEntry mem]

theorem length_procEntries (w : WireProc) : (procEntries w).length ≤ 10 := by
  unfold procEntries optionalEntry
  simp only [List.length_append, List.length_singleton]
  split_ifs <;> simp

theorem procItem_readable {w : WireProc} (flat : w.Flat) (kids : ∀ c ∈ w.children, (childItem c).Readable) :
    (procItem w).Readable := by
  have key : ∀ n < 2 ^ 64, (Item.unsigned n).Readable := fun n small => small
  have short := length_procEntries w
  rw [procItem_eq, readable_map]
  refine ⟨by unfold maxItems; omega, procEntries_forall ?_ ?_ ?_ ?_ ?_ ?_ ?_ ?_ ?_ ?_⟩
  · refine ⟨key 1 (by decide), ?_⟩
    cases known : w.code with
    | none => simp [codeItem, nullItem, Item.Readable]
    | some b => exact flat.code b known
  · exact ⟨key 2 (by decide), paramsItem_readable flat.params⟩
  · exact ⟨key 3 (by decide), intItem_readable flat.nlocals⟩
  · exact ⟨key 4 (by decide), intItem_readable flat.nregs⟩
  · exact ⟨key 5 (by decide), array_readable flat.pool.1 fun l mem => literalItem_readable (flat.pool.2 l mem)⟩
  · exact ⟨key 6 (by decide), array_readable flat.syms.1 fun s mem => textItem_readable (flat.syms.2 s mem)⟩
  · exact ⟨key 7 (by decide), array_readable flat.children kids⟩
  · exact ⟨key 8 (by decide),
      array_readable flat.handlers.1 fun h mem => handlerItem_readable (flat.handlers.2 h mem)⟩
  · exact ⟨key 9 (by decide), textItem_readable flat.filename⟩
  · exact ⟨key 10 (by decide), array_readable flat.lines.1 fun e mem => lineItem_readable (flat.lines.2 e mem)⟩

@[simp] theorem height_unsigned (n : Nat) : (Item.unsigned n).height = 0 := rfl

@[simp] theorem height_intItem (n : Int) : (intItem n).height = 0 := by
  unfold intItem
  split <;> rfl

@[simp] theorem height_textItem (s : String) : (textItem s).height = 0 := rfl

@[simp] theorem height_boolItem (b : Bool) : (boolItem b).height = 0 := rfl

@[simp] theorem height_nullItem : nullItem.height = 0 := rfl

@[simp] theorem height_codeItem (code : Option (Array UInt8)) : (codeItem code).height = 0 := by
  cases code <;> rfl

@[simp] theorem height_floatItem (bits : UInt64) : (floatItem bits).height = 0 := by
  unfold floatItem
  split
  split
  · split <;> rfl
  · split <;> try split
    all_goals rfl

theorem height_mapped_le {α : Type} {xs : List α} {item : α → Item} {h : Nat}
    (each : ∀ x ∈ xs, (item x).height ≤ h) : (Item.array (xs.map item)).height ≤ h + 1 :=
  height_array_le.mpr (by simpa using each)

theorem procItem_height_le {w : WireProc} {h : Nat} (three : 3 ≤ h)
    (kids : ∀ c ∈ w.children, (childItem c).height + 1 ≤ h) : (procItem w).height ≤ h + 1 := by
  have params : (paramsItem w.params).height ≤ 1 := height_array_le.mpr (by simp)
  have literal : ∀ l, (literalItem l).height ≤ 1 := fun l => height_array_le.mpr (by simp)
  have handler : ∀ g, (handlerItem g).height ≤ 2 := fun g => by
    have guards : (match g.guards with
        | none => nullItem
        | some gs => Item.array (gs.map textItem)).height ≤ 1 := by
      cases g.guards with
      | none => simp
      | some gs => exact height_mapped_le fun s _ => by simp
    refine height_array_le.mpr ?_
    simp [guards]
  have line : ∀ e, (lineItem e).height ≤ 1 := fun e => height_map_le.mpr (by simp)
  have pool : (Item.array (w.pool.map literalItem)).height ≤ 1 + 1 := height_mapped_le fun l _ => literal l
  have syms : (Item.array (w.syms.map textItem)).height ≤ 0 + 1 := height_mapped_le fun s _ => by simp
  have children : (Item.array (w.children.map childItem)).height ≤ h - 1 + 1 :=
    height_mapped_le fun c mem => by have := kids c mem; omega
  have handlers : (Item.array (w.handlers.map handlerItem)).height ≤ 2 + 1 := height_mapped_le fun g _ => handler g
  have lines : (Item.array (w.lines.map lineItem)).height ≤ 1 + 1 := height_mapped_le fun e _ => line e
  rw [procItem_eq, height_map_le]
  refine procEntries_forall ?_ ?_ ?_ ?_ ?_ ?_ ?_ ?_ ?_ ?_
  all_goals simp only [height_unsigned, height_codeItem, height_intItem, height_textItem, Nat.zero_le, true_and]
  all_goals omega

theorem WireProc.Fits.readable {k : Nat} {w : WireProc} (fits : w.Fits k) : (procItem w).Readable := by
  induction k generalizing w with
  | zero =>
    refine procItem_readable fits.1 fun c mem => ?_
    rw [fits.2 c mem]
    simp [childItem, nullItem, Item.Readable]
  | succ k ih =>
    refine procItem_readable fits.1 fun c mem => ?_
    cases c with
    | none => simp [childItem, nullItem, Item.Readable]
    | some q => exact ih (fits.2 _ mem q rfl)

theorem WireProc.Fits.height_le {k : Nat} {w : WireProc} (fits : w.Fits k) : (procItem w).height ≤ 2 * k + 4 := by
  induction k generalizing w with
  | zero =>
    refine procItem_height_le (le_refl 3) fun c mem => ?_
    rw [fits.2 c mem]
    simp [childItem]
  | succ k ih =>
    refine procItem_height_le (by omega) fun c mem => ?_
    cases c with
    | none => simp [childItem]
    | some q =>
      have := ih (fits.2 _ mem q rfl)
      simp only [childItem]
      omega

theorem containerItem_readable {root : WireProc} {k : Nat} (fits : root.Fits k) :
    (containerItem root).Readable := by
  rw [containerItem, readable_map]
  refine ⟨by simp [maxItems], ?_⟩
  simp [Item.Readable, textItem_readable (show magic.utf8ByteSize < 2 ^ 63 by decide),
    intItem_readable (show Signed64 version by unfold Signed64 version; norm_num), fits.readable]

theorem containerItem_height_le {root : WireProc} {k : Nat} (fits : root.Fits k) :
    (containerItem root).height ≤ 2 * k + 5 := by
  rw [containerItem, height_map_le]
  simp [fits.height_le]

theorem decode_encode {root : WireProc} {k : Nat} (fits : root.Fits k) (shallow : k ≤ 13) :
    decode (encode root) = .ok { magic := magic, version := version, root := some root } := by
  have height := containerItem_height_le fits
  rw [decode, encode_eq, read_encode (containerItem_readable fits) (by unfold maxDepth; omega)]
  dsimp only
  rw [asContainer_containerItem fits (by unfold maxDepth; omega)]

theorem unpack_encode {root : WireProc} {k : Nat} (fits : root.Fits k) (shallow : k ≤ 13) :
    unpack (encode root) = .ok root := by
  rw [unpack, decode_encode fits shallow]
  simp

end RegisterVM.Bundle
