import BeanClass.Proofs.Pool.Growth

/-! # Operations on a constant pool

An operation that succeeds gives an index at which the pool holds, from then on, what was asked for.
Failed or not, an operation only pushes constants, so every pool that operations lead to is sound.
-/

namespace BeanClass.ConstantPool

variable {α β : Type} {p q r : ConstantPool} {c : Constant} {i : UInt16}

theorem bind_eq_ok {x : PoolM α} {f : α → PoolM β} {b : β} :
    (x >>= f) p = .ok b r ↔ ∃ a q, x p = .ok a q ∧ f a q = .ok b r := by
  change EStateM.bind x f p = _ ↔ _
  unfold EStateM.bind
  constructor
  · intro h
    split at h
    · exact ⟨_, _, ‹_›, h⟩
    · cases h
  · rintro ⟨a, q, hx, hf⟩
    rw [hx]
    exact hf

theorem pure_eq_ok {a b : α} : (pure a : PoolM α) p = .ok b q ↔ a = b ∧ p = q := by
  change EStateM.Result.ok a p = .ok b q ↔ _
  rw [EStateM.Result.ok.injEq]

/-- A short enough text, or a class or member whose parts the pool holds. -/
def Supports (p : ConstantPool) : Constant → Prop
  | .utf8 text => (Text.encode text.toList).length ≤ maxText
  | .classRef name => ∃ text, p.utf8? name = some text
  | .nameAndType name descriptor =>
    (∃ text, p.utf8? name = some text) ∧ ∃ text, p.utf8? descriptor = some text
  | .fieldRef owner nameAndType | .methodRef owner nameAndType =>
    (∃ text, p.className? owner = some text) ∧ ∃ texts, p.nameAndType? nameAndType = some texts
  | _ => False

theorem Supports.grows {ok : ConstantPool → Constant → Prop} (h : p.Supports c)
    (hpq : Grows ok p q) : q.Supports c := by
  cases c with
  | utf8 => exact h
  | classRef =>
    obtain ⟨text, htext⟩ := h
    exact ⟨text, hpq.utf8? htext⟩
  | nameAndType =>
    obtain ⟨⟨name, hname⟩, descriptor, hdescriptor⟩ := h
    exact ⟨⟨name, hpq.utf8? hname⟩, descriptor, hpq.utf8? hdescriptor⟩
  | fieldRef | methodRef =>
    obtain ⟨⟨owner, howner⟩, names, hnames⟩ := h
    exact ⟨⟨owner, hpq.className? howner⟩, names, hpq.nameAndType? hnames⟩
  | _ => cases h

/-- Every constant of a pool that operations built has its parts in the pool. -/
theorem Grows.supports_of_mem (h : Grows Supports empty p) (hc : some c ∈ p.slots) :
    p.Supports c := by
  induction h with
  | refl => simp [empty] at hc
  | @push q r d i _ hd hpush ih =>
    have hgrows : Grows Supports q r := Grows.refl.push hd hpush
    rcases (mem_slots_push hpush).mp hc with hold | rfl
    · exact (ih hold).grows hgrows
    · exact hd.grows hgrows

theorem add_ok (hp : p.Sound) (hc : p.Supports c) (h : add c p = .ok i q) :
    Grows Supports p q ∧ q.get? i = some c := by
  unfold add at h
  split at h
  · rename_i j hj
    injection h with hi hq
    subst hi hq
    exact ⟨.refl, ((hp.lookup_iff c j).mp hj).1⟩
  · refine ⟨Grows.refl.push hc h, ?_⟩
    rw [get?_push h, if_pos rfl]

theorem addUtf8_ok {text : String} (hp : p.Sound) (h : addUtf8 text p = .ok i q) :
    Grows Supports p q ∧ q.utf8? i = some text := by
  unfold addUtf8 at h
  dsimp only at h
  split at h
  · cases h
  · rename_i hlength
    obtain ⟨hgrows, hget⟩ := add_ok (c := .utf8 text) hp (Nat.le_of_not_lt hlength) h
    exact ⟨hgrows, by rw [utf8?, hget]⟩

theorem addClass_ok {name : String} (hp : p.Sound) (h : addClass name p = .ok i q) :
    Grows Supports p q ∧ q.className? i = some name := by
  obtain ⟨j, r, hname, hadd⟩ := bind_eq_ok.mp h
  obtain ⟨hpr, htext⟩ := addUtf8_ok hp hname
  obtain ⟨hrq, hget⟩ := add_ok (c := .classRef j) (hpr.sound hp) ⟨name, htext⟩ hadd
  exact ⟨hpr.trans hrq, by rw [className?, hget]; exact hrq.utf8? htext⟩

theorem addNameAndType_ok {name descriptor : String} (hp : p.Sound)
    (h : addNameAndType name descriptor p = .ok i q) :
    Grows Supports p q ∧ q.nameAndType? i = some (name, descriptor) := by
  obtain ⟨j, r, hname, h⟩ := bind_eq_ok.mp h
  obtain ⟨k, s, hdescriptor, hadd⟩ := bind_eq_ok.mp h
  obtain ⟨hpr, hj⟩ := addUtf8_ok hp hname
  obtain ⟨hrs, hk⟩ := addUtf8_ok (hpr.sound hp) hdescriptor
  obtain ⟨hsq, hget⟩ := add_ok (c := .nameAndType j k) (hrs.sound (hpr.sound hp))
    ⟨⟨name, hrs.utf8? hj⟩, ⟨descriptor, hk⟩⟩ hadd
  refine ⟨(hpr.trans hrs).trans hsq, ?_⟩
  rw [nameAndType?, hget]
  simp [(hrs.trans hsq).utf8? hj, hsq.utf8? hk]

/-- References to fields and methods are built in the same way. -/
theorem addMember_ok {make : UInt16 → UInt16 → Constant} {member : MemberRef}
    (hmake : make = .fieldRef ∨ make = .methodRef) (hp : p.Sound)
    (h : (addClass member.owner >>= fun owner => addNameAndType member.name member.descriptor >>=
      fun nameAndType => add (make owner nameAndType)) p = .ok i q) :
    Grows Supports p q ∧ (∃ j k, q.get? i = some (make j k)) ∧ q.memberRef? i = some member := by
  obtain ⟨j, r, howner, h⟩ := bind_eq_ok.mp h
  obtain ⟨k, s, hnames, hadd⟩ := bind_eq_ok.mp h
  obtain ⟨hpr, hj⟩ := addClass_ok hp howner
  obtain ⟨hrs, hk⟩ := addNameAndType_ok (hpr.sound hp) hnames
  have hparts : s.Supports (make j k) := by
    rcases hmake with rfl | rfl <;> exact ⟨⟨_, hrs.className? hj⟩, ⟨_, hk⟩⟩
  obtain ⟨hsq, hget⟩ := add_ok (hrs.sound (hpr.sound hp)) hparts hadd
  refine ⟨(hpr.trans hrs).trans hsq, ⟨j, k, hget⟩, ?_⟩
  have hj' := (hrs.trans hsq).className? hj
  have hk' := hsq.nameAndType? hk
  rcases hmake with rfl | rfl <;> rw [memberRef?, hget] <;> simp [hj', hk']

theorem addFieldRef_ok {member : MemberRef} (hp : p.Sound) (h : addFieldRef member p = .ok i q) :
    Grows Supports p q ∧ (∃ j k, q.get? i = some (.fieldRef j k)) ∧
      q.memberRef? i = some member :=
  addMember_ok (Or.inl rfl) hp h

theorem addMethodRef_ok {member : MemberRef} (hp : p.Sound) (h : addMethodRef member p = .ok i q) :
    Grows Supports p q ∧ (∃ j k, q.get? i = some (.methodRef j k)) ∧
      q.memberRef? i = some member :=
  addMember_ok (Or.inr rfl) hp h

/-- A step for each item of a list, where what one step establishes lasts while the pool grows. -/
theorem mapM_ok {f : α → PoolM β} (rel : ConstantPool → β → α → Prop)
    (hf : ∀ {a p b q}, p.Sound → f a p = .ok b q → Grows Supports p q ∧ rel q b a)
    (hrel : ∀ {p q b a}, Grows Supports p q → rel p b a → rel q b a)
    {l : List α} {bs : List β} (hp : p.Sound) (h : l.mapM f p = .ok bs q) :
    Grows Supports p q ∧ List.Forall₂ (rel q) bs l := by
  induction l generalizing p bs with
  | nil =>
    rw [List.mapM_nil, pure_eq_ok] at h
    obtain ⟨rfl, rfl⟩ := h
    exact ⟨.refl, .nil⟩
  | cons a l ih =>
    rw [List.mapM_cons] at h
    obtain ⟨b, r, ha, h⟩ := bind_eq_ok.mp h
    obtain ⟨bs, s, hl, h⟩ := bind_eq_ok.mp h
    obtain ⟨rfl, rfl⟩ := pure_eq_ok.mp h
    obtain ⟨hpr, hb⟩ := hf hp ha
    obtain ⟨hrs, hbs⟩ := ih (hpr.sound hp) hl
    exact ⟨hpr.trans hrs, .cons (hrel hrs hb) hbs⟩

/-- A call of an operation. -/
inductive Call where
  | push (constant : Constant)
  | add (constant : Constant)
  | addUtf8 (text : String)
  | addClass (name : String)
  | addNameAndType (name descriptor : String)
  | addFieldRef (member : MemberRef)
  | addMethodRef (member : MemberRef)

def Call.run : Call → PoolM UInt16
  | push constant => ConstantPool.push constant
  | add constant => ConstantPool.add constant
  | addUtf8 text => ConstantPool.addUtf8 text
  | addClass name => ConstantPool.addClass name
  | addNameAndType name descriptor => ConstantPool.addNameAndType name descriptor
  | addFieldRef member => ConstantPool.addFieldRef member
  | addMethodRef member => ConstantPool.addMethodRef member

/-- The call appends nothing that the pool holds already. -/
def Call.adds : Call → Bool
  | push _ => false
  | _ => true

/-- Such a call is a sequence of additions that may fail. -/
theorem Call.run_of_adds {motive : PoolM UInt16 → Prop} (hadd : ∀ c, motive (ConstantPool.add c))
    (hfail : ∀ e, motive (throw e))
    (hbind : ∀ {x f}, motive x → (∀ i, motive (f i)) → motive (x >>= f)) {call : Call}
    (h : call.adds = true) : motive call.run := by
  have hutf8 : ∀ text, motive (ConstantPool.addUtf8 text) := by
    intro text
    unfold ConstantPool.addUtf8
    dsimp only
    split
    · exact hfail _
    · exact hadd _
  have hclass : ∀ name, motive (ConstantPool.addClass name) :=
    fun name => hbind (hutf8 name) fun _ => hadd _
  have hnames : ∀ name descriptor, motive (ConstantPool.addNameAndType name descriptor) :=
    fun name descriptor => hbind (hutf8 name) fun _ => hbind (hutf8 descriptor) fun _ => hadd _
  cases call with
  | push c => cases h
  | add c => exact hadd c
  | addUtf8 text => exact hutf8 text
  | addClass name => exact hclass name
  | addNameAndType name descriptor => exact hnames name descriptor
  | addFieldRef member | addMethodRef member =>
    exact hbind (hclass _) fun _ => hbind (hnames _ _) fun _ => hadd _

/-- The pool that a step leaves behind, failed or not. -/
def after (x : PoolM α) (p : ConstantPool) : ConstantPool :=
  match x p with
  | .ok _ q | .error _ q => q

/-- The pools that calls lead to from the empty one, failed calls included. -/
def Reachable (p : ConstantPool) : Prop :=
  ∃ calls : List Call, calls.foldl (fun p call => after call.run p) empty = p

/-- Whether or not it fails, the step only pushes constants. -/
def OnlyPushes (x : PoolM α) : Prop :=
  ∀ p, Grows (fun _ _ => True) p (after x p)

theorem after_bind (x : PoolM α) (f : α → PoolM β) (p : ConstantPool) :
    after (x >>= f) p = match x p with
      | .ok a q => after (f a) q
      | .error _ q => q := by
  change (match EStateM.bind x f p with | .ok _ q | .error _ q => q) = _
  unfold EStateM.bind
  cases x p <;> rfl

theorem OnlyPushes.bind {x : PoolM α} {f : α → PoolM β} (hx : OnlyPushes x)
    (hf : ∀ a, OnlyPushes (f a)) : OnlyPushes (x >>= f) := by
  intro p
  have hp := hx p
  rw [after_bind]
  unfold after at hp
  cases hq : x p with
  | ok a q =>
    rw [hq] at hp
    exact hp.trans (hf a q)
  | error e q =>
    rw [hq] at hp
    exact hp

/-- A push, failed or not, is growth by the constant. -/
theorem grows_after_push {ok : ConstantPool → Constant → Prop} (hc : ok p c) :
    Grows ok p (after (push c) p) := by
  unfold after
  split
  · rename_i hpush
    exact Grows.refl.push hc hpush
  · rename_i herror
    unfold push at herror
    split at herror
    · injection herror with _ hq
      exact hq ▸ .refl
    · cases herror

theorem onlyPushes_add (c : Constant) : OnlyPushes (add c) := by
  intro p
  have hpush : Grows (fun _ _ => True) p (after (push c) p) := grows_after_push trivial
  unfold after at hpush ⊢
  unfold add
  cases p.lookup[c]? with
  | none => exact hpush
  | some i => exact .refl

theorem Call.onlyPushes (call : Call) : OnlyPushes call.run := by
  cases call with
  | push c => exact fun _ => grows_after_push trivial
  | _ => exact Call.run_of_adds onlyPushes_add (fun _ _ => .refl) OnlyPushes.bind rfl

theorem grows_calls (calls : List Call) (p : ConstantPool) :
    Grows (fun _ _ => True) p (calls.foldl (fun p call => after call.run p) p) := by
  induction calls generalizing p with
  | nil => exact .refl
  | cons call calls ih => exact (call.onlyPushes p).trans (ih _)

theorem Reachable.grows (h : p.Reachable) : Grows (fun _ _ => True) empty p := by
  obtain ⟨calls, rfl⟩ := h
  exact grows_calls calls empty

theorem Reachable.sound (h : p.Reachable) : p.Sound :=
  h.grows.sound sound_empty

/-- The pool that constants are pushed into, one after the other. -/
def ofConstants (cs : List Constant) : ConstantPool :=
  cs.foldl (fun p c => after (push c) p) empty

theorem reachable_ofConstants (cs : List Constant) : (ofConstants cs).Reachable :=
  ⟨cs.map .push, List.foldl_map⟩

theorem slots_after_push (hnarrow : c.isWide = false) (hcount : p.count + 1 ≤ maxCount) :
    (after (push c) p).slots = p.slots.push (some c) := by
  have hwidth : c.width = 1 := by simp [Constant.width, hnarrow]
  have hroom : ¬maxCount < p.count + c.width := by omega
  simp [after, push, hroom, hnarrow]

theorem slots_foldl_push {cs : List Constant} (hnarrow : ∀ c ∈ cs, c.isWide = false)
    (hcount : p.count + cs.length ≤ maxCount) :
    (cs.foldl (fun p c => after (push c) p) p).slots = p.slots ++ (cs.map some).toArray := by
  induction cs generalizing p with
  | nil => simp
  | cons c cs ih =>
    obtain ⟨hc, hcs⟩ := List.forall_mem_cons.mp hnarrow
    rw [List.length_cons] at hcount
    have hslots := slots_after_push (p := p) hc (by omega)
    have hnext : (after (push c) p).count = p.count + 1 := by simp [count, hslots]
    rw [List.foldl_cons, ih hcs (by omega), hslots]
    simp

/-- Constants of one slot are held in the order in which they are given. -/
theorem slots_ofConstants {cs : List Constant} (hnarrow : ∀ c ∈ cs, c.isWide = false)
    (hcount : cs.length < maxCount) : (ofConstants cs).slots = (cs.map some).toArray := by
  have hslots := slots_foldl_push (p := empty) hnarrow
    (by simp only [count, empty, List.size_toArray, List.length_nil]; omega)
  rw [ofConstants, hslots]
  simp [empty]

theorem get?_ofConstants {cs : List Constant} (hnarrow : ∀ c ∈ cs, c.isWide = false)
    (hcount : cs.length < maxCount) (i : UInt16) :
    (ofConstants cs).get? i = if i = 0 then none else cs[i.toNat - 1]? := by
  rw [get?, slots_ofConstants hnarrow hcount, List.getElem?_toArray, List.getElem?_map]
  cases cs[i.toNat - 1]? <;> rfl

end BeanClass.ConstantPool
