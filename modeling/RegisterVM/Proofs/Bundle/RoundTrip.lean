import RegisterVM.Proofs.Bundle.Decoding
import RegisterVM.Proofs.Bundle.Interning

set_option autoImplicit false

namespace RegisterVM

namespace Procedure

def mapSyms (f : Sym → Sym) (p : Procedure) : Procedure :=
  { p with
    syms := p.syms.map f
    handlers := p.handlers.map fun h => { h with guards := h.guards.map f }
    children := p.children.attach.map fun c => c.1.mapSyms f }
termination_by sizeOf p
decreasing_by
  have := Array.sizeOf_lt_of_mem c.2
  cases p
  simp_all only [Procedure.mk.sizeOf_spec]
  omega

def symbols (p : Procedure) : List Sym :=
  p.syms.toList ++ p.handlers.toList.flatMap (fun h => h.guards.toList) ++
    p.children.attach.toList.flatMap fun c => c.1.symbols
termination_by sizeOf p
decreasing_by
  have := Array.sizeOf_lt_of_mem c.2
  cases p
  simp_all only [Procedure.mk.sizeOf_spec]
  omega

theorem mapSyms_eq (f : Sym → Sym) (p : Procedure) :
    p.mapSyms f = { p with
      syms := p.syms.map f
      handlers := p.handlers.map fun h => { h with guards := h.guards.map f }
      children := p.children.map (mapSyms f) } := by
  rw [mapSyms, Array.attach_map_val p.children (mapSyms f)]

theorem symbols_eq (p : Procedure) :
    p.symbols = p.syms.toList ++ p.handlers.toList.flatMap (fun h => h.guards.toList) ++
      p.children.toList.flatMap symbols := by
  rw [symbols]
  congr 1
  rw [Array.toList_attach, List.flatMap_def, List.attachWith_map_val, ← List.flatMap_def]

theorem mem_symbols_of_child {p q : Procedure} (child : q ∈ p.children) {s : Sym} (mem : s ∈ q.symbols) :
    s ∈ p.symbols := by
  rw [symbols_eq]
  exact List.mem_append_right _ (List.mem_flatMap.mpr ⟨q, Array.mem_toList_iff.mpr child, mem⟩)

theorem mapSyms_congr {f g : Sym → Sym} (p : Procedure) (same : ∀ s ∈ p.symbols, f s = g s) :
    p.mapSyms f = p.mapSyms g := by
  have syms : p.syms.map f = p.syms.map g :=
    Array.map_congr_left fun s mem => same s (by rw [symbols_eq]; simp [mem])
  have handlers : (p.handlers.map fun h => { h with guards := h.guards.map f }) =
      p.handlers.map fun h => { h with guards := h.guards.map g } := by
    refine Array.map_congr_left fun h mem => ?_
    congr 1
    exact Array.map_congr_left fun s guard => same s (by rw [symbols_eq]; simp; exact Or.inr (Or.inl ⟨h, mem, guard⟩))
  have children : p.children.map (mapSyms f) = p.children.map (mapSyms g) :=
    Array.map_congr_left fun q mem => mapSyms_congr q fun s inner => same s (mem_symbols_of_child mem inner)
  rw [mapSyms_eq, mapSyms_eq, syms, handlers, children]
termination_by sizeOf p
decreasing_by
  have := Array.sizeOf_lt_of_mem mem
  cases p
  simp_all only [Procedure.mk.sizeOf_spec]
  omega

theorem symbols_mapSyms (f : Sym → Sym) (p : Procedure) : (p.mapSyms f).symbols = p.symbols.map f := by
  have children : ((p.children.map (mapSyms f)).toList.flatMap symbols) =
      (p.children.toList.flatMap symbols).map f := by
    rw [Array.toList_map, List.flatMap_map, List.map_flatMap]
    exact List.flatMap_congr fun q mem => symbols_mapSyms f q
  rw [mapSyms_eq, symbols_eq, symbols_eq]
  simp only [Array.toList_map, List.map_append, List.flatMap_map, List.map_flatMap] at children ⊢
  rw [children]
termination_by sizeOf p
decreasing_by
  have := Array.sizeOf_lt_of_mem (Array.mem_toList_iff.mp mem)
  cases p
  simp_all only [Procedure.mk.sizeOf_spec]
  omega

end Procedure

namespace Bundle

open Cbor

def wireLiteral (l : Literal) : WireLiteral := { kind := l.kind, int := l.int, float := l.float, str := l.str }

def wireHandler (t : Symbols) (h : Handler) : WireHandler :=
  { kind := h.kind, start := h.start, stop := h.stop, target := h.target,
    guards := guardList (h.guards.toList.map t.text) }

def wireOf (t : Symbols) (p : Procedure) : WireProc :=
  { code := some p.code, params := p.params, nlocals := p.nlocals, nregs := p.nregs,
    pool := p.pool.toList.map wireLiteral, syms := p.syms.toList.map t.text,
    children := p.children.attach.toList.map fun c => some (wireOf t c.1),
    handlers := p.handlers.toList.map (wireHandler t), filename := p.filename, lines := p.lines.toList }
termination_by sizeOf p
decreasing_by
  have := Array.sizeOf_lt_of_mem c.2
  cases p
  simp_all only [Procedure.mk.sizeOf_spec]
  omega

theorem wireOf_eq (t : Symbols) (p : Procedure) :
    wireOf t p =
      { code := some p.code, params := p.params, nlocals := p.nlocals, nregs := p.nregs,
        pool := p.pool.toList.map wireLiteral, syms := p.syms.toList.map t.text,
        children := p.children.toList.map fun q => some (wireOf t q),
        handlers := p.handlers.toList.map (wireHandler t), filename := p.filename, lines := p.lines.toList } := by
  rw [wireOf, Array.toList_attach, List.attachWith_map_val (f := fun q => some (wireOf t q))]

theorem mapM_ok {α β ε : Type} {f : α → Except ε β} {g : α → β} (xs : List α)
    (each : ∀ x ∈ xs, f x = .ok (g x)) : xs.mapM f = .ok (xs.map g) := by
  induction xs with
  | nil => rfl
  | cons x xs ih =>
    rw [List.mapM_cons, each x (by simp), ok_bind, ih fun y mem => each y (List.mem_cons_of_mem x mem)]
    rfl

theorem symbolName_ok {t : Symbols} {s : Sym} (named : t.text s ≠ "") : symbolName t s = .ok (t.text s) := by
  unfold symbolName
  rw [if_neg (by simpa [String.isEmpty_iff] using named)]

theorem toWire_eq {t : Symbols} (p : Procedure) (named : ∀ s ∈ p.symbols, t.text s ≠ "") :
    toWire t p = .ok (wireOf t p) := by
  have own : ∀ s ∈ p.syms, t.text s ≠ "" := fun s mem => named s (by rw [Procedure.symbols_eq]; simp [mem])
  have guard : ∀ h ∈ p.handlers, ∀ s ∈ h.guards, t.text s ≠ "" := fun h mem s guard =>
    named s (by rw [Procedure.symbols_eq]; simp; exact Or.inr (Or.inl ⟨h, mem, guard⟩))
  rw [toWire, mapM_ok (g := t.text) _ fun s mem => symbolName_ok (own s (Array.mem_toList_iff.mp mem)), ok_bind,
    mapM_ok (g := wireHandler t) _ fun h mem => ?handler, ok_bind,
    mapM_ok (g := fun c => some (wireOf t c.1)) _ fun c _ => ?child, ok_bind, wireOf]
  · rfl
  case handler =>
    rw [mapM_ok (g := t.text) _ fun s guardMem =>
      symbolName_ok (guard h (Array.mem_toList_iff.mp mem) s (Array.mem_toList_iff.mp guardMem))]
    rfl
  case child =>
    rw [toWire_eq c.1 fun s inner => named s (Procedure.mem_symbols_of_child c.2 inner)]
    rfl
termination_by sizeOf p
decreasing_by
  have := Array.sizeOf_lt_of_mem c.2
  cases p
  simp_all only [Procedure.mk.sizeOf_spec]
  omega

theorem internNames_append (tab : Symbols) (names : List String) (n : String) :
    internNames tab (names ++ [n]) =
      (((internNames tab names).1.intern n).1,
        (internNames tab names).2.push ((internNames tab names).1.intern n).2) := by
  unfold internNames
  rw [List.foldl_append]
  rfl

theorem internNames_spec (tab : Symbols) (names : List String) :
    tab.Extends (internNames tab names).1 ∧ (∀ n ∈ names, (internNames tab names).1.Numbers n) ∧
      (internNames tab names).2 = (names.map fun n => ((internNames tab names).1.intern n).2).toArray := by
  induction names using List.reverseRecOn with
  | nil => exact ⟨SymbolTable.Extends.refl _, by simp, rfl⟩
  | append_singleton names n ih =>
    obtain ⟨ext, known, syms⟩ := ih
    rw [internNames_append]
    generalize internNames tab names = r at ext known syms ⊢
    obtain ⟨t₁, acc⟩ := r
    dsimp only at ext known syms ⊢
    have grows := SymbolTable.extends_intern t₁ n
    refine ⟨ext.trans grows, fun m mem => ?_, ?_⟩
    · rcases List.mem_append.mp mem with old | new
      · exact grows.numbers (known m old)
      · rw [List.mem_singleton.mp new]
        exact SymbolTable.numbers_intern t₁ n
    · -- earlier names keep their symbols, and the new one has the symbol just issued
      have again : ((t₁.intern n).1.intern n).2 = (t₁.intern n).2 := by
        rw [SymbolTable.intern_of_known (SymbolTable.intern_known t₁ n)]
      apply Array.ext'
      rw [syms]
      simp only [Array.toList_push, List.map_append, List.map_singleton, again]
      congr 1
      exact List.map_congr_left fun m mem => (SymbolTable.intern_eq_of_extends grows (known m mem)).symm

def loadHandler (tab : Symbols) (h : WireHandler) : Handler :=
  { kind := h.kind, start := h.start, stop := h.stop, target := h.target,
    guards := ((h.guards.getD []).map fun n => (tab.intern n).2).toArray }

theorem handlers_of_foldl {step : Symbols × Array Handler → WireHandler → Symbols × Array Handler}
    {hs : List WireHandler} {tab t₂ : Symbols} {acc res : Array Handler} (run : hs.foldl step (tab, acc) = (t₂, res))
    (spec : ∀ tab acc h, step (tab, acc) h = ((internNames tab (h.guards.getD [])).1,
      acc.push
        { kind := h.kind, start := h.start, stop := h.stop, target := h.target,
          guards := (internNames tab (h.guards.getD [])).2 })) :
    tab.Extends t₂ ∧ (∀ h ∈ hs, ∀ n ∈ h.guards.getD [], t₂.Numbers n) ∧
      res = acc ++ (hs.map (loadHandler t₂)).toArray := by
  induction hs generalizing tab acc with
  | nil =>
    cases run
    exact ⟨SymbolTable.Extends.refl _, by simp, by simp⟩
  | cons h rest ih =>
    rw [List.foldl_cons, spec] at run
    obtain ⟨ext₁, known₁, guards₁⟩ := internNames_spec tab (h.guards.getD [])
    obtain ⟨ext, known, loaded⟩ := ih run
    refine ⟨ext₁.trans ext, fun g mem n guard => ?_, ?_⟩
    · rcases List.mem_cons.mp mem with rfl | mem
      · exact ext.numbers (known₁ n guard)
      · exact known g mem n guard
    · -- the entry's guards were numbered before the rest of the table was loaded
      have first : loadHandler t₂ h =
          { kind := h.kind, start := h.start, stop := h.stop, target := h.target,
            guards := (internNames tab (h.guards.getD [])).2 } := by
        rw [loadHandler, guards₁]
        congr 2
        exact List.map_congr_left fun n guard => SymbolTable.intern_eq_of_extends ext (known₁ n guard)
      rw [loaded, List.map_cons, first]
      apply Array.ext'
      simp

def rename (t tab : Symbols) (s : Sym) : Sym := (tab.intern (t.text s)).2

def childStep (path : String) (c : Option WireProc) (s : Symbols × Array Procedure) :
    Except String (ForInStep (Symbols × Array Procedure)) :=
  match c with
  | none => throw (formatMessage (path ++ ": child " ++ toString s.2.size ++ " is empty"))
  | some k => do
    let (p, t') ← fromWire s.1 k (path ++ "/" ++ toString s.2.size)
    pure (.yield (t', s.2.push p))

theorem childStep_some {path : String} {k : WireProc} {s : Symbols × Array Procedure} {p : Procedure}
    {t' : Symbols} (loaded : fromWire s.1 k (path ++ "/" ++ toString s.2.size) = .ok (p, t')) :
    childStep path (some k) s = .ok (.yield (t', s.2.push p)) := by
  simp only [childStep, loaded, ok_bind]
  rfl

theorem forIn_attach_eq {α β ε : Type} {xs : List α} {init : β} {body : {x // x ∈ xs} → β → Except ε (ForInStep β)}
    {f : α → β → Except ε (ForInStep β)} (same : ∀ c s, body c s = f c.1 s) :
    forIn xs.attach init body = forIn xs init f := by
  conv_rhs => rw [← List.attach_map_subtype_val xs, List.forIn_map]
  congr 1
  funext c s
  exact same c s

theorem children_loop (t : Symbols) (path : String) (qs : List Procedure)
    (each : ∀ q ∈ qs, ∀ (tab : Symbols) (path' : String), ∃ tab',
      fromWire tab (wireOf t q) path' = .ok (q.mapSyms (rename t tab'), tab') ∧ tab.Extends tab' ∧
        ∀ s ∈ q.symbols, tab'.Numbers (t.text s))
    (tab : Symbols) (acc : Array Procedure) :
    ∃ tab', forIn qs (tab, acc) (fun q s => childStep path (some (wireOf t q)) s) =
        .ok (tab', acc ++ (qs.map (Procedure.mapSyms (rename t tab'))).toArray) ∧ tab.Extends tab' ∧
      ∀ q ∈ qs, ∀ s ∈ q.symbols, tab'.Numbers (t.text s) := by
  induction qs generalizing tab acc with
  | nil => exact ⟨tab, by simp; rfl, SymbolTable.Extends.refl _, by simp⟩
  | cons q rest ih =>
    obtain ⟨t₁, loaded, ext₁, known₁⟩ := each q (by simp) tab (path ++ "/" ++ toString acc.size)
    obtain ⟨t₂, loop, ext₂, known₂⟩ :=
      ih (fun q' mem => each q' (List.mem_cons_of_mem q mem)) t₁ (acc.push (q.mapSyms (rename t t₁)))
    -- the first child's symbols were all numbered before the others were loaded
    have kept : q.mapSyms (rename t t₁) = q.mapSyms (rename t t₂) :=
      Procedure.mapSyms_congr q fun s mem => (SymbolTable.intern_eq_of_extends ext₂ (known₁ s mem)).symm
    refine ⟨t₂, ?_, ext₁.trans ext₂, fun q' mem s inner => ?_⟩
    · rw [List.forIn_cons, childStep_some loaded, ok_bind]
      dsimp only
      rw [loop, kept]
      congr 2
      apply Array.ext'
      simp
    · rcases List.mem_cons.mp mem with rfl | mem
      · exact ext₂.numbers (known₁ s inner)
      · exact known₂ q' mem s inner

theorem guardList_getD (gs : List String) : (guardList gs).getD [] = gs := by
  unfold guardList
  split
  · rename_i empty
    simpa using empty
  · rfl

theorem mem_wireHandler_guards {t : Symbols} {h : Handler} {s : Sym} (guard : s ∈ h.guards) :
    t.text s ∈ (wireHandler t h).guards.getD [] := by
  rw [wireHandler, guardList_getD]
  exact List.mem_map_of_mem (Array.mem_toList_iff.mpr guard)

theorem loadHandler_wireHandler (t tab : Symbols) (h : Handler) :
    loadHandler tab (wireHandler t h) = { h with guards := h.guards.map (rename t tab) } := by
  simp only [loadHandler, wireHandler, guardList_getD, List.map_map]
  congr 1
  apply Array.ext'
  simp [rename]

theorem fromWire_wireOf (t : Symbols) (p : Procedure) (tab : Symbols) (path : String) :
    ∃ tab', fromWire tab (wireOf t p) path = .ok (p.mapSyms (rename t tab'), tab') ∧ tab.Extends tab' ∧
      ∀ s ∈ p.symbols, tab'.Numbers (t.text s) := by
  rw [fromWire]
  split
  rename_i t₁ own loaded₁
  split
  rename_i t₂ handlers loaded₂
  dsimp only
  rw [forIn_attach_eq (f := childStep path) fun c s => by rcases c with ⟨_ | k, mem⟩ <;> rfl]
  rw [wireOf_eq] at loaded₁ loaded₂ ⊢
  dsimp only at loaded₁ loaded₂ ⊢
  rw [List.forIn_map]
  -- the procedure's own symbols, then its catch table, then its children, each into the table
  -- the one before left
  obtain ⟨ext₁, known₁, syms₁⟩ := internNames_spec tab (p.syms.toList.map t.text)
  rw [loaded₁] at ext₁ known₁ syms₁
  dsimp only at ext₁ known₁ syms₁
  obtain ⟨ext₂, known₂, handlers₂⟩ := handlers_of_foldl loaded₂ fun _ _ _ => rfl
  obtain ⟨t₃, loop, ext₃, known₃⟩ := children_loop t path p.children.toList
    (fun q _ tab' path' => fromWire_wireOf t q tab' path') t₂ #[]
  have ownKnown : ∀ s ∈ p.syms, t₁.Numbers (t.text s) := fun s own =>
    known₁ _ (List.mem_map_of_mem (Array.mem_toList_iff.mpr own))
  have guardsKnown : ∀ h ∈ p.handlers, ∀ s ∈ h.guards, t₂.Numbers (t.text s) := fun h mem s guard =>
    known₂ (wireHandler t h) (List.mem_map_of_mem (Array.mem_toList_iff.mpr mem)) _ (mem_wireHandler_guards guard)
  refine ⟨t₃, ?_, ext₁.trans (ext₂.trans ext₃), fun s mem => ?_⟩
  · -- each symbol got its number before the last table, which keeps it
    have syms : own = p.syms.map (rename t t₃) := by
      rw [syms₁]
      apply Array.ext'
      simp only [List.map_map, Array.toList_map]
      exact List.map_congr_left fun s mem =>
        (SymbolTable.intern_eq_of_extends (ext₂.trans ext₃) (ownKnown s (Array.mem_toList_iff.mp mem))).symm
    have handlers' : handlers = p.handlers.map fun h => { h with guards := h.guards.map (rename t t₃) } := by
      rw [handlers₂]
      apply Array.ext'
      simp only [Array.toList_append, List.map_map, Array.toList_map]
      refine List.map_congr_left fun h mem => ?_
      rw [Function.comp_apply, loadHandler_wireHandler]
      congr 1
      exact Array.map_congr_left fun s guard =>
        (SymbolTable.intern_eq_of_extends ext₃ (guardsKnown h (Array.mem_toList_iff.mp mem) s guard)).symm
    rw [loop, ok_bind, Procedure.mapSyms_eq, syms, handlers']
    show Except.ok _ = Except.ok _
    congr 2
    congr 1
    · apply Array.ext'
      simp only [List.map_map]
      exact (List.map_congr_left fun l _ => rfl).trans (List.map_id _)
    · apply Array.ext'
      simp
  · rw [Procedure.symbols_eq] at mem
    simp only [List.mem_append, Array.mem_toList_iff, List.mem_flatMap] at mem
    rcases mem with (own | ⟨h, mem, guard⟩) | ⟨q, mem, inner⟩
    · exact (ext₂.trans ext₃).numbers (ownKnown s own)
    · exact ext₃.numbers (guardsKnown h mem s guard)
    · exact known₃ q (Array.mem_toList_iff.mpr mem) s inner
termination_by sizeOf p
decreasing_by
  have := Array.sizeOf_lt_of_mem (Array.mem_toList_iff.mp ‹_›)
  cases p
  simp_all only [Procedure.mk.sizeOf_spec]
  omega

theorem wireHandler_rename {t t₂ : Symbols} {g : Sym → Sym} {h : Handler}
    (same : ∀ s ∈ h.guards, t₂.text (g s) = t.text s) :
    wireHandler t₂ { h with guards := h.guards.map g } = wireHandler t h := by
  simp only [wireHandler, Array.toList_map, List.map_map]
  congr 2
  exact List.map_congr_left fun s mem => same s (Array.mem_toList_iff.mp mem)

theorem wireOf_mapSyms {t t₂ : Symbols} {g : Sym → Sym} (p : Procedure)
    (same : ∀ s ∈ p.symbols, t₂.text (g s) = t.text s) : wireOf t₂ (p.mapSyms g) = wireOf t p := by
  have syms : (p.syms.map g).toList.map t₂.text = p.syms.toList.map t.text := by
    rw [Array.toList_map, List.map_map]
    exact List.map_congr_left fun s mem =>
      same s (by rw [Procedure.symbols_eq]; simp [Array.mem_toList_iff.mp mem])
  have handlers : (p.handlers.map fun h => { h with guards := h.guards.map g }).toList.map (wireHandler t₂) =
      p.handlers.toList.map (wireHandler t) := by
    rw [Array.toList_map, List.map_map]
    refine List.map_congr_left fun h mem => wireHandler_rename fun s guard => same s ?_
    rw [Procedure.symbols_eq]
    simp only [List.mem_append, Array.mem_toList_iff, List.mem_flatMap]
    exact Or.inl (Or.inr ⟨h, Array.mem_toList_iff.mp mem, guard⟩)
  have children : (p.children.map (Procedure.mapSyms g)).toList.map (fun q => some (wireOf t₂ q)) =
      p.children.toList.map fun q => some (wireOf t q) := by
    rw [Array.toList_map, List.map_map]
    exact List.map_congr_left fun q mem => congrArg some
      (wireOf_mapSyms q fun s inner => same s (Procedure.mem_symbols_of_child (Array.mem_toList_iff.mp mem) inner))
  rw [wireOf_eq, wireOf_eq, Procedure.mapSyms_eq]
  dsimp only
  rw [syms, handlers, children]
termination_by sizeOf p
decreasing_by
  have := Array.sizeOf_lt_of_mem (Array.mem_toList_iff.mp mem)
  cases p
  simp_all only [Procedure.mk.sizeOf_spec]
  omega

theorem pack_eq {t : Symbols} {p : Procedure} (named : ∀ s ∈ p.symbols, t.text s ≠ "") :
    pack t p = .ok (encode (wireOf t p)) := by
  rw [pack, toWire_eq p named, ok_bind]
  rfl

theorem bundle_round_trip {t : Symbols} {p : Procedure} (named : ∀ s ∈ p.symbols, t.text s ≠ "")
    (fits : (wireOf t p).Fits 13) (t' : Symbols) :
    ∃ data t'', pack t p = .ok data ∧ load t' data = .ok (wireOf t p, p.mapSyms (rename t t''), t'') ∧
      t'.Extends t'' ∧ (∀ s ∈ p.symbols, t''.Numbers (t.text s)) ∧
      ∀ (t₂ : Symbols) (g : Sym → Sym), (∀ s ∈ p.symbols, t₂.text (g s) = t.text s) →
        pack t₂ (p.mapSyms g) = .ok data := by
  obtain ⟨t'', loaded, grows, known⟩ := fromWire_wireOf t p t' "root"
  refine ⟨encode (wireOf t p), t'', pack_eq named, ?_, grows, known, fun t₂ g same => ?_⟩
  · rw [load, unpack_encode fits le_rfl, ok_bind, loaded]
    rfl
  · -- the renamed tree has the same names, so it is written, and written alike
    have renamed : ∀ s ∈ (p.mapSyms g).symbols, t₂.text s ≠ "" := by
      rw [Procedure.symbols_mapSyms]
      intro s mem
      obtain ⟨s₀, mem₀, rfl⟩ := List.mem_map.mp mem
      rw [same s₀ mem₀]
      exact named s₀ mem₀
    rw [pack_eq renamed, wireOf_mapSyms p same]

theorem one_symbol_round_trip :
    ∃ data t'', pack (Symbols.fresh.intern "a").1 { syms := #[(Symbols.fresh.intern "a").2] } = .ok data ∧
      load Symbols.fresh data =
        .ok (wireOf (Symbols.fresh.intern "a").1 { syms := #[(Symbols.fresh.intern "a").2] },
          Procedure.mapSyms (rename (Symbols.fresh.intern "a").1 t'') { syms := #[(Symbols.fresh.intern "a").2] },
          t'') := by
  have text : Symbols.text (Symbols.fresh.intern "a").1 (Symbols.fresh.intern "a").2 = "a" :=
    (SymbolTable.empty_sound "").name_intern "a" ""
  have named : ∀ s ∈ Procedure.symbols { syms := #[(Symbols.fresh.intern "a").2] },
      Symbols.text (Symbols.fresh.intern "a").1 s ≠ "" := by
    intro s mem
    rw [Procedure.symbols_eq] at mem
    simp only [List.mem_append, List.mem_flatMap, List.mem_singleton, List.not_mem_nil, false_and, exists_false,
      or_false] at mem
    rw [mem, text]
    decide
  have fits : (wireOf (Symbols.fresh.intern "a").1 { syms := #[(Symbols.fresh.intern "a").2] }).Fits 13 := by
    rw [wireOf_eq]
    refine ⟨⟨?_, ⟨?_, ?_, ?_, ?_⟩, ?_, ?_, ?_, ?_, ?_, ?_, ?_, ?_⟩, ?_⟩
    all_goals simp [Signed64, maxItems, text]
    decide
  obtain ⟨data, t'', packed, loaded, -⟩ := bundle_round_trip named fits Symbols.fresh
  exact ⟨data, t'', packed, loaded⟩

theorem pack_of_empty_name :
    pack (Symbols.fresh.intern "").1 { syms := #[(Symbols.fresh.intern "").2] } =
      .error "bundle: symbol 1 has no name" := by
  have unnamed : Symbols.text (Symbols.fresh.intern "").1 (Symbols.fresh.intern "").2 = "" :=
    (SymbolTable.empty_sound "").name_intern "" ""
  have first : (Symbols.fresh.intern "").2 = ⟨1⟩ := by
    simp [SymbolTable.intern, Symbols.fresh, SymbolTable.empty]
  have refused : symbolName (Symbols.fresh.intern "").1 (Symbols.fresh.intern "").2 =
      .error "bundle: symbol 1 has no name" := by
    rw [symbolName, unnamed, first]
    rfl
  rw [pack, toWire, List.mapM_cons, refused]
  rfl

end Bundle

end RegisterVM
