import RegisterVM.Proofs.Native.IntegerRanges

set_option autoImplicit false

namespace RegisterVM

namespace Store

theorem pure_inj {α : Type} {a b : α} : (pure a : StoreM α) = pure b ↔ a = b := by
  constructor
  · intro same
    simpa using congrArg (fun x => x.run ({} : Store)) same
  · rintro rfl
    rfl

theorem int64_ofNat_eq_iff (a b : Nat) : Int64.ofNat a = Int64.ofNat b ↔ a % 2 ^ 64 = b % 2 ^ 64 := by
  rw [← Int64.toBitVec_inj, Int64.toBitVec_ofNat', Int64.toBitVec_ofNat']
  constructor
  · intro same
    simpa using congrArg BitVec.toNat same
  · intro same
    apply BitVec.eq_of_toNat_eq
    simpa using same

theorem twice_succ_eq_iff (a b : Int64) : 2 * a + 1 = 2 * b + 1 ↔ a = b ∨ a = b + Int64.minValue := by
  rw [← Int64.toBitVec_inj, ← Int64.toBitVec_inj, ← Int64.toBitVec_inj]
  simp only [Int64.toBitVec_add, Int64.toBitVec_mul]
  rw [show Int64.minValue.toBitVec = BitVec.ofNat 64 (2 ^ 63) by decide,
    show (2 : Int64).toBitVec = 2 from rfl, show (1 : Int64).toBitVec = 1 from rfl]
  bv_omega

theorem objectId_int_eq_iff (a b : Int64) :
    objectId (.int a) = objectId (.int b) ↔ a = b ∨ a = b + Int64.minValue := by
  rw [← twice_succ_eq_iff]
  exact pure_inj

theorem objectId_float_eq_iff (x y : UInt64) :
    objectId (.float x) = objectId (.float y) ↔ x.toNat % 2 ^ 32 = y.toNat % 2 ^ 32 := by
  show (pure _ : StoreM Int64) = pure _ ↔ _
  rw [pure_inj, int64_ofNat_eq_iff]
  simp only [Nat.pow_eq]
  omega

theorem objectId_sym_eq_iff (s t : Sym) :
    objectId (.sym s) = objectId (.sym t) ↔ s.id % 2 ^ 32 = t.id % 2 ^ 32 := by
  show (pure _ : StoreM Int64) = pure _ ↔ _
  rw [pure_inj, int64_ofNat_eq_iff]
  simp only [Nat.pow_eq]
  omega

theorem objectId_run_of_serial {st : Store} {r : ObjRef} {o : Obj} (found : st.heap[r.idx]? = some o)
    (numbered : 0 < o.serial) : (objectId (.obj r)).run st = .ok (Int64.ofNat o.serial <<< 3) st := by
  have kept : (o.serial == 0) = false := by simp; omega
  rw [objectId, EStateM.run_bind, getObj_run, found]
  simp [kept]

theorem shift_eq_iff {k k' : Nat} (small : k < 2 ^ 61) (small' : k' < 2 ^ 61) :
    Int64.ofNat k <<< 3 = Int64.ofNat k' <<< 3 ↔ k = k' := by
  rw [← Int64.toBitVec_inj]
  simp only [Int64.toBitVec_shiftLeft, Int64.toBitVec_ofNat']
  constructor
  · intro same
    have := congrArg BitVec.toNat same
    simp [BitVec.toNat_shiftLeft] at this
    omega
  · rintro rfl
    rfl

theorem objectId_obj_eq_iff {st : Store} {p q : ObjRef} {o o' : Obj} (found : st.heap[p.idx]? = some o)
    (found' : st.heap[q.idx]? = some o') (numbered : 0 < o.serial) (numbered' : 0 < o'.serial)
    (small : o.serial < 2 ^ 61) (small' : o'.serial < 2 ^ 61) :
    (objectId (.obj p)).run st = (objectId (.obj q)).run st ↔ o.serial = o'.serial := by
  rw [objectId_run_of_serial found numbered, objectId_run_of_serial found' numbered',
    EStateM.Result.ok.injEq, and_iff_left rfl]
  exact shift_eq_iff small small'

theorem object_ids_collide_iff (a b : Int64) (x y : UInt64) (s t : Sym) :
    (objectId (.int a) = objectId (.int b) ↔ a = b ∨ a = b + Int64.minValue) ∧
    (objectId (.float x) = objectId (.float y) ↔ x.toNat % 2 ^ 32 = y.toNat % 2 ^ 32) ∧
    (objectId (.sym s) = objectId (.sym t) ↔ s.id % 2 ^ 32 = t.id % 2 ^ 32) ∧
    (∀ (st : Store) (p q : ObjRef) (o o' : Obj), st.heap[p.idx]? = some o → st.heap[q.idx]? = some o' →
      0 < o.serial → 0 < o'.serial → o.serial < 2 ^ 61 → o'.serial < 2 ^ 61 →
      ((objectId (.obj p)).run st = (objectId (.obj q)).run st ↔ o.serial = o'.serial)) :=
  ⟨objectId_int_eq_iff a b, objectId_float_eq_iff x y, objectId_sym_eq_iff s t,
    fun _ _ _ _ _ found found' numbered numbered' small small' =>
      objectId_obj_eq_iff found found' numbered numbered' small small'⟩

theorem two_numbered_objects_differ :
    let st : Store := { heap := #[{ cls := none, serial := 1, body := .plain },
      { cls := none, serial := 2, body := .plain }] }
    ((objectId (.obj ⟨0⟩)).run st = (objectId (.obj ⟨1⟩)).run st ↔ (1 : Nat) = 2) := by
  intro st
  exact (object_ids_collide_iff 0 0 0 0 ⟨0⟩ ⟨0⟩).2.2.2 st ⟨0⟩ ⟨1⟩ { cls := none, serial := 1, body := .plain }
    { cls := none, serial := 2, body := .plain } rfl rfl (by decide) (by decide) (by decide) (by decide)

theorem distinct_scalars_share_ids :
    objectId (.int 0) = objectId (.int Int64.minValue) ∧ Value.int 0 ≠ .int Int64.minValue ∧
      objectId (.float 0x3FF0000000000000) = objectId (.float 0x4000000000000000) ∧
      Value.float 0x3FF0000000000000 ≠ .float 0x4000000000000000 :=
  ⟨rfl, by decide, rfl, by decide⟩

end Store

namespace Native

open Machine

theorem strictCopy_shares_id (m : Machine) {st : Store} {p : ObjRef} {o : Obj} {d : ProcData}
    (found : st.heap[p.idx]? = some o) (proc : o.body = .proc d) (numbered : 0 < o.serial) :
    ∃ q st', ((strictCopy p).run.run m).run st = .ok (.ok q) st' ∧ q ≠ p ∧
      (Store.objectId (.obj q)).run st' = (Store.objectId (.obj p)).run st' := by
  have within : p.idx < st.heap.size := (Array.getElem?_eq_some_iff.1 found).1
  let copy : Obj := { o with body := .proc { d with strict := true } }
  refine ⟨⟨st.heap.size⟩, { st with heap := st.heap.push copy }, ?_, ?_, ?_⟩
  · have getting : ((store (Store.getObj p)).run.run m).run st = .ok (.ok o) st := by
      rw [store_run, Store.getObj_run, found]
    rw [strictCopy, bind_run_of_ok m getting, proc]
    dsimp only
    rw [store_run, Store.alloc_run]
  · intro same
    rw [← same] at within
    exact absurd within (Nat.lt_irrefl _)
  · have old : ({ st with heap := st.heap.push copy } : Store).heap[p.idx]? = some o := by
      rw [Array.getElem?_push, if_neg (Nat.ne_of_lt within), found]
    have new : ({ st with heap := st.heap.push copy } : Store).heap[st.heap.size]? = some copy :=
      Array.getElem?_push_size
    rw [Store.objectId_run_of_serial (r := ⟨st.heap.size⟩) new numbered,
      Store.objectId_run_of_serial old numbered]

end Native

end RegisterVM
