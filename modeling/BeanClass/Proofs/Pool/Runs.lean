import BeanClass.Proofs.Pool.Operations

/-! # Runs of calls on a constant pool

Over every run of calls, failed ones included, a pool keeps its invariant and what it holds. An index
that a call gave shows what was asked for from then on, and the same call gives it again.
-/

namespace BeanClass.ConstantPool

variable {p q r : ConstantPool} {c : Constant} {i : UInt16} {ok : ConstantPool → Constant → Prop}

theorem after_of_ok {α : Type} {x : PoolM α} {a : α} (h : x p = .ok a q) : after x p = q := by
  rw [after, h]

/-- The pool that calls lead to one after the other, failed or not. -/
def runAll (calls : List Call) (p : ConstantPool) : ConstantPool :=
  calls.foldl (fun p call => after call.run p) p

theorem grows_runAll (calls : List Call) (p : ConstantPool) :
    Grows (fun _ _ => True) p (runAll calls p) :=
  grows_calls calls p

/-- A sound pool whose only indices without a constant are those behind wide ones. -/
structure Coherent (p : ConstantPool) : Prop extends Sound p where
  behind_wide : ∀ i c, p.get? i = some c → c.isWide = true → i.toNat + 1 < p.count
  get?_eq_none_iff : ∀ i, i ≠ 0 → i.toNat < p.count →
    (p.get? i = none ↔ ∃ j c, j.toNat + 1 = i.toNat ∧ p.get? j = some c ∧ c.isWide = true)

theorem Grows.coherent (h : Grows ok empty p) : p.Coherent where
  toSound := h.sound sound_empty
  behind_wide _ _ hget hwide := (h.get?_behind_wide hget hwide).1
  get?_eq_none_iff i hi hlt := by
    constructor
    · exact h.exists_wide hi hlt
    · rintro ⟨j, c, hj, hget, hwide⟩
      obtain ⟨hbehind, hnone⟩ := h.get?_behind_wide hget hwide
      have hnext : (j + 1).toNat = i.toNat := by
        rw [toNat_succ (h.sound sound_empty).count_le hbehind, hj]
      rwa [← UInt16.toNat_inj.mp hnext]

/-- The pool does not hold the constant. -/
def Lacks (p : ConstantPool) (c : Constant) : Prop :=
  ∀ i, p.get? i ≠ some c

/-- No constant stands at two indices. -/
def Distinct (p : ConstantPool) : Prop :=
  ∀ i j c, p.get? i = some c → p.get? j = some c → i = j

theorem distinct_empty : empty.Distinct := by
  intro i j c hi
  rw [get?_empty] at hi
  cases hi

theorem Grows.distinct (h : Grows Lacks p q) (hp : p.Distinct) : q.Distinct := by
  induction h with
  | refl => exact hp
  | @push q r d k _ hlacks hpush ih =>
    intro i j c hi hj
    rw [get?_push hpush] at hi hj
    split at hi <;> split at hj
    · subst i j
      rfl
    · cases hi
      exact absurd hj (hlacks j)
    · cases hj
      exact absurd hi (hlacks i)
    · exact ih i j c hi hj

/-- A step that appends only what the pool lacks, and does nothing but give the same index when it
is repeated. -/
structure Interns (x : PoolM UInt16) : Prop where
  grows : ∀ {p}, p.Sound → Grows Lacks p (after x p)
  again : ∀ {p q r i}, p.Sound → x p = .ok i q → Grows (fun _ _ => True) q r → x r = .ok i r

theorem Interns.grows_of_ok {x : PoolM UInt16} (hx : Interns x) (hp : p.Sound)
    (h : x p = .ok i q) : Grows Lacks p q :=
  after_of_ok h ▸ hx.grows hp

theorem Interns.bind {x : PoolM UInt16} {f : UInt16 → PoolM UInt16} (hx : Interns x)
    (hf : ∀ i, Interns (f i)) : Interns (x >>= f) where
  grows {p} hp := by
    have hgrows := hx.grows hp
    rw [after_bind]
    unfold after at hgrows
    cases hq : x p with
    | ok j q =>
      rw [hq] at hgrows
      exact hgrows.trans ((hf j).grows (hgrows.sound hp))
    | error e q =>
      rw [hq] at hgrows
      exact hgrows
  again {p q r i} hp h hr := by
    obtain ⟨j, s, hj, hi⟩ := bind_eq_ok.mp h
    have hps := hx.grows_of_ok hp hj
    have hsq := (hf j).grows_of_ok (hps.sound hp) hi
    have hsr := (hsq.mono fun _ _ _ => trivial).trans hr
    exact bind_eq_ok.mpr ⟨j, r, hx.again hp hj hsr, (hf j).again (hps.sound hp) hi hr⟩

theorem Sound.lacks_of_lookup (hp : p.Sound) (h : p.lookup[c]? = none) : p.Lacks c := by
  intro i hi
  obtain ⟨j, hj⟩ := exists_isFirst hi
  rw [(hp.lookup_iff c j).mpr hj] at h
  cases h

theorem isFirst_of_add (hp : p.Sound) (h : add c p = .ok i q) : q.IsFirst c i := by
  unfold add at h
  split at h
  · rename_i hi
    cases h
    exact (hp.lookup_iff c i).mp hi
  · exact isFirst_push_of_not_mem h (hp.lacks_of_lookup ‹_›)

theorem interns_add (c : Constant) : Interns (add c) where
  grows {p} hp := by
    unfold after add
    cases hlookup : p.lookup[c]? with
    | some i => exact .refl
    | none => exact grows_after_push (hp.lacks_of_lookup hlookup)
  again {p q r i} hp h hr := by
    have hq : q.Sound := after_of_ok h ▸ (onlyPushes_add c p).sound hp
    have hlookup := ((hr.sound hq).lookup_iff c i).mpr (hr.isFirst (isFirst_of_add hp h))
    rw [add, hlookup]

theorem interns_throw (e : EncodeError) : Interns (throw e) where
  grows _ := .refl
  again _ h := nomatch h

theorem Call.interns {call : Call} (h : call.adds = true) : Interns call.run :=
  Call.run_of_adds interns_add interns_throw Interns.bind h

theorem distinct_runAll {calls : List Call} (h : ∀ call ∈ calls, call.adds = true) (hp : p.Sound)
    (hdistinct : p.Distinct) : (runAll calls p).Distinct := by
  induction calls generalizing p with
  | nil => exact hdistinct
  | cons call calls ih =>
    obtain ⟨hcall, hcalls⟩ := List.forall_mem_cons.mp h
    have hgrows := (Call.interns hcall).grows hp
    exact ih hcalls (hgrows.sound hp) (hgrows.distinct hdistinct)

/-- The index shows what the call was asked for. -/
def Call.Yields (p : ConstantPool) (i : UInt16) : Call → Prop
  | push constant | add constant => p.get? i = some constant
  | addUtf8 text => p.get? i = some (.utf8 text)
  | addClass name => p.className? i = some name
  | addNameAndType name descriptor => p.nameAndType? i = some (name, descriptor)
  | addFieldRef member =>
    (∃ j k, p.get? i = some (.fieldRef j k)) ∧ p.memberRef? i = some member
  | addMethodRef member =>
    (∃ j k, p.get? i = some (.methodRef j k)) ∧ p.memberRef? i = some member

theorem get?_of_utf8? {text : String} (h : p.utf8? i = some text) : p.get? i = some (.utf8 text) := by
  unfold utf8? at h
  split at h
  · cases h
    assumption
  · cases h

theorem Call.yields_of_run {call : Call} (hp : p.Sound) (h : call.run p = .ok i q) :
    call.Yields q i := by
  cases call with
  | push c =>
    change ConstantPool.push c p = .ok i q at h
    change q.get? i = some c
    rw [get?_push h, if_pos rfl]
  | add c => exact (isFirst_of_add hp h).1
  | addUtf8 text => exact get?_of_utf8? (addUtf8_ok hp h).2
  | addClass name => exact (addClass_ok hp h).2
  | addNameAndType name descriptor => exact (addNameAndType_ok hp h).2
  | addFieldRef member => exact (addFieldRef_ok hp h).2
  | addMethodRef member => exact (addMethodRef_ok hp h).2

theorem Call.Yields.grows {call : Call} (h : call.Yields p i) (hpq : Grows ok p q) :
    call.Yields q i := by
  cases call with
  | push | add | addUtf8 => exact hpq.get? h
  | addClass => exact hpq.className? h
  | addNameAndType => exact hpq.nameAndType? h
  | addFieldRef | addMethodRef =>
    obtain ⟨⟨j, k, hget⟩, hmember⟩ := h
    exact ⟨⟨j, k, hpq.get? hget⟩, hpq.memberRef? hmember⟩

/-- Over every run of calls the pool keeps its invariant, each further call leaves the indices in use
as they are, additions alone give every constant one index, and an index that a call gave keeps
showing what was asked for and is what the same addition gives again. -/
theorem runAll_coherent (calls : List Call) :
    (runAll calls empty).Coherent ∧
      (∀ (call : Call) (i : UInt16), i.toNat < (runAll calls empty).count →
        (after call.run (runAll calls empty)).get? i = (runAll calls empty).get? i) ∧
      ((∀ call ∈ calls, call.adds = true) → (runAll calls empty).Distinct) ∧
      ∀ (call : Call) (i : UInt16) (q : ConstantPool), call.run (runAll calls empty) = .ok i q →
        ∀ later : List Call, call.Yields (runAll later q) i ∧
          (call.adds = true → call.run (runAll later q) = .ok i (runAll later q)) := by
  have hgrows := grows_runAll calls empty
  have hsound := hgrows.sound sound_empty
  refine ⟨hgrows.coherent, ?_, ?_, ?_⟩
  · intro call i hi
    exact (call.onlyPushes _).get?_of_lt hi
  · intro hadds
    exact distinct_runAll hadds sound_empty distinct_empty
  · intro call i q hcall later
    have hlater := grows_runAll later q
    refine ⟨(Call.yields_of_run hsound hcall).grows hlater, fun hadds => ?_⟩
    exact (Call.interns hadds).again hsound hcall hlater

/-- The index behind a wide constant stays unused. -/
theorem runAll_coherent_long :
    (∀ call ∈ [Call.add (.long 7)], call.adds = true) ∧
      (runAll [.add (.long 7)] empty).Distinct ∧ (runAll [.add (.long 7)] empty).get? 2 = none ∧
      ∃ q, (Call.addClass "A").run (runAll [.add (.long 7)] empty) = .ok 4 q ∧
        ∀ later, (runAll later q).className? 4 = some "A" ∧
          (Call.addClass "A").run (runAll later q) = .ok 4 (runAll later q) := by
  have hadds : ∀ call ∈ [Call.add (.long 7)], call.adds = true := by simp [Call.adds]
  have hrun : ∃ q, (Call.addClass "A").run (runAll [.add (.long 7)] empty) = .ok 4 q := by
    simp +decide [runAll, after, Call.run, bind, EStateM.bind, addClass, addUtf8, add, push, empty,
      count, -getElem?_pos]
  have hlong : (runAll [.add (.long 7)] empty).get? 1 = some (.long 7) ∧
      (runAll [.add (.long 7)] empty).count = 3 := by
    simp +decide [runAll, after, Call.run, add, push, empty, count, get?]
  obtain ⟨hcoherent, -, hdistinct, hcalls⟩ := runAll_coherent [.add (.long 7)]
  have hnone := (hcoherent.get?_eq_none_iff 2 (by decide) (by rw [hlong.2]; decide)).mpr
    ⟨1, .long 7, rfl, hlong.1, rfl⟩
  obtain ⟨q, hq⟩ := hrun
  refine ⟨hadds, hdistinct hadds, hnone, q, hq, fun later => ?_⟩
  obtain ⟨hyields, hagain⟩ := hcalls _ 4 q hq later
  exact ⟨hyields, hagain rfl⟩

end BeanClass.ConstantPool
