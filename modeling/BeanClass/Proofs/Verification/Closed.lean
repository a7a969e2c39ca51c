import BeanClass.Proofs.Compile

/-! # Accepted class files are closed

In a class file that verification accepts every reference leads to what it refers to, no two fields
and no two methods share name and descriptor, and exactly the methods that need code have it.
-/

namespace BeanClass

open Verification ConstantPool

/-- Class constants name a class, and references to fields and methods a member. -/
structure ConstantPool.Closed (pool : ConstantPool) : Prop where
  classes : ∀ i name, pool.get? i = some (.classRef name) → ∃ text, pool.className? i = some text
  members : ∀ i c, pool.get? i = some c → (isFieldRef c || isMethodRef c) = true →
    ∃ member, pool.memberRef? i = some member

/-- The attributes with a given name. -/
def RawAttribute.withName (pool : ConstantPool) (name : String) (attributes : List RawAttribute) :
    List RawAttribute :=
  attributes.filter fun a => a.name? pool == some name

/-- The stack map that a body has among its attributes, or none. -/
def CodeAttribute.HasStackMap (pool : ConstantPool) (body : CodeAttribute) : Option StackMap → Prop
  | none => RawAttribute.withName pool "StackMapTable" body.attributes = []
  | some stackMap => ∃ a, RawAttribute.withName pool "StackMapTable" body.attributes = [a] ∧
    StackMap.decode a.info = .ok stackMap

/-- The payload is a body that is accepted under the descriptor with the stack map that it has. -/
def RawAttribute.HoldsCode (pool : ConstantPool) (descriptor : String) (isStatic : Bool)
    (a : RawAttribute) : Prop :=
  ∃ body stackMap, CodeAttribute.decode a.info = .ok body ∧ body.HasStackMap pool stackMap ∧
    checkCode pool body descriptor isStatic stackMap = .ok ()

namespace Member

/-- The name and the descriptor, as far as the pool has them. -/
def names (pool : ConstantPool) (m : Member) : Option String × Option String :=
  (pool.utf8? m.nameIndex, pool.utf8? m.descriptorIndex)

/-- Abstract and native methods have no code. -/
def needsCode (m : Member) : Bool :=
  !(AccessFlag.isAbstract.isIn m.access || AccessFlag.isNative.isIn m.access)

structure IsField (pool : ConstantPool) (f : Member) (name descriptor : String) : Prop where
  names : f.names pool = (some name, some descriptor)
  isFieldDescriptor : isFieldDescriptor descriptor.toList = true

structure IsMethod (pool : ConstantPool) (m : Member) (name descriptor : String) : Prop where
  names : m.names pool = (some name, some descriptor)
  split : ∃ d, MethodDescriptor.split descriptor = .ok d
  code : m.needsCode = true → ∃ a, RawAttribute.withName pool "Code" m.attributes = [a] ∧
    a.HoldsCode pool descriptor (AccessFlag.isStatic.isIn m.access)
  noCode : m.needsCode = false → RawAttribute.withName pool "Code" m.attributes = []

end Member

/-- Everything that a class file refers to is there, and its members can be told apart. -/
structure ClassFile.Closed (cf : ClassFile) : Prop where
  pool : cf.pool.Closed
  thisName : ∃ name, cf.thisName? = some name ∧ isInternalName name.toList = true
  superClass : cf.superClass = 0 →
    cf.thisName? = some "java/lang/Object" ∨ AccessFlag.isModule.isIn cf.access = true
  fields : ∀ f ∈ cf.fields, ∃ name descriptor, f.IsField cf.pool name descriptor
  fieldNames : (cf.fields.map (·.names cf.pool)).Nodup
  methods : ∀ m ∈ cf.methods, ∃ name descriptor, m.IsMethod cf.pool name descriptor
  methodNames : (cf.methods.map (·.names cf.pool)).Nodup

namespace Verification

variable {pool : ConstantPool} {cf : ClassFile} {access : UInt16} {name descriptor : String}

theorem mem_slots_of_get? {i : UInt16} {c : Constant} (h : pool.get? i = some c) :
    some c ∈ pool.slots := by
  unfold get? at h
  split at h
  · cases h
  · exact Array.mem_of_getElem? (Option.join_eq_some_iff.mp h)

theorem exists_nameAndType {i : UInt16} (hpool : ∀ c, some c ∈ pool.slots →
      ∃ hasBootstrap, checkConstant pool hasBootstrap c = .ok ())
    (h : checkNameAndType pool i = .ok ()) : ∃ names, pool.nameAndType? i = some names := by
  unfold checkNameAndType at h
  split at h
  · rename_i j k hget
    -- the texts behind the two indices are checked where this constant itself is
    obtain ⟨_, hcheck⟩ := hpool _ (mem_slots_of_get? hget)
    obtain ⟨name, hname, hcheck⟩ := bind_ok_iff.mp hcheck
    obtain ⟨descriptor, hdescriptor, -⟩ := bind_ok_iff.mp hcheck
    refine ⟨(name, descriptor), ?_⟩
    rw [nameAndType?, hget]
    simp [textAt_eq_ok.mp hname, textAt_eq_ok.mp hdescriptor]
  · cases h

theorem closed_of_checkPool (h : checkPool cf = .ok ()) : cf.pool.Closed where
  classes i name hget := by
    have hcheck := checkPool_eq_ok.mp h _ (mem_slots_of_get? hget)
    obtain ⟨text, htext, -⟩ := bind_ok_iff.mp hcheck
    exact ⟨text, by rw [className?, hget]; exact textAt_eq_ok.mp htext⟩
  members i c hget hkind := by
    have hcheck := checkPool_eq_ok.mp h _ (mem_slots_of_get? hget)
    have hpool : ∀ d, some d ∈ cf.pool.slots →
        ∃ hasBootstrap, checkConstant cf.pool hasBootstrap d = .ok () :=
      fun d hd => ⟨_, checkPool_eq_ok.mp h d hd⟩
    cases c with
    | fieldRef j k | methodRef j k | interfaceMethodRef j k =>
      obtain ⟨owner, howner, hcheck⟩ := bind_ok_iff.mp hcheck
      obtain ⟨names, hnames⟩ := exists_nameAndType hpool hcheck
      refine ⟨⟨owner, names.1, names.2⟩, ?_⟩
      rw [memberRef?, hget]
      simp [classAt_eq_ok.mp howner, hnames]
    | _ => cases hkind

/-- The names of members that were checked one after the other differ. -/
theorem nodup_names_of_foldlM {ε : Type} {f : MemberNames → Member → Except ε MemberNames}
    {members : List Member} {seen found : MemberNames}
    (hstep : ∀ {seen m found}, f seen m = .ok found → ∃ name descriptor,
      m.names pool = (some name, some descriptor) ∧ (name, descriptor) ∉ seen ∧
        found = seen.insert (name, descriptor))
    (h : members.foldlM f seen = .ok found) : (members.map (·.names pool)).Nodup ∧
      ∀ m ∈ members, ∀ name descriptor, (name, descriptor) ∈ seen →
        m.names pool ≠ (some name, some descriptor) := by
  induction members generalizing seen with
  | nil => exact ⟨List.nodup_nil, nofun⟩
  | cons m members ih =>
    rw [List.foldlM_cons, bind_ok_iff] at h
    obtain ⟨next, hm, h⟩ := h
    obtain ⟨name, descriptor, hnames, hfresh, rfl⟩ := hstep hm
    obtain ⟨hnodup, hrest⟩ := ih h
    refine ⟨?_, List.forall_mem_cons.mpr ⟨?_, ?_⟩⟩
    · rw [List.map_cons, List.nodup_cons]
      refine ⟨fun hmem => ?_, hnodup⟩
      obtain ⟨other, hother, heq⟩ := List.mem_map.mp hmem
      exact hrest other hother name descriptor Std.HashSet.mem_insert_self (heq.trans hnames)
    · intro name' descriptor' hseen heq
      rw [hnames] at heq
      cases heq
      exact hfresh hseen
    · intro other hother name' descriptor' hseen
      exact hrest other hother name' descriptor' (Std.HashSet.mem_insert.mpr (Or.inr hseen))

theorem names_eq {ε : Type} {f : PoolError → ε} {m : Member}
    (hname : (textAt pool m.nameIndex).mapError f = .ok name)
    (hdescriptor : (textAt pool m.descriptorIndex).mapError f = .ok descriptor) :
    m.names pool = (some name, some descriptor) := by
  rw [Member.names, textAt_eq_ok.mp (mapError_ok_iff.mp hname),
    textAt_eq_ok.mp (mapError_ok_iff.mp hdescriptor)]

theorem checkField_eq_ok {seen found : MemberNames} {f : Member}
    (h : checkField cf seen f = .ok found) : ∃ name descriptor, f.IsField cf.pool name descriptor ∧
      (name, descriptor) ∉ seen ∧ found = seen.insert (name, descriptor) := by
  obtain ⟨name, hname, h⟩ := bind_ok_iff.mp h
  obtain ⟨-, h⟩ := ite_error_ok_iff.mp h
  obtain ⟨descriptor, hdescriptor, h⟩ := bind_ok_iff.mp h
  obtain ⟨hfield, h⟩ := ite_error_ok_iff.mp h
  obtain ⟨hseen, h⟩ := ite_error_ok_iff.mp h
  obtain ⟨-, h⟩ := ite_error_ok_iff.mp h
  obtain ⟨_, -, h⟩ := bind_ok_iff.mp h
  cases h
  exact ⟨name, descriptor, ⟨names_eq hname hdescriptor, by simpa using hfield⟩, hseen, rfl⟩

theorem stackMapOf_eq_ok {body : CodeAttribute} {stackMap : Option StackMap}
    (h : stackMapOf pool body = .ok stackMap) : body.HasStackMap pool stackMap := by
  unfold stackMapOf at h
  split at h
  · cases h
    assumption
  · obtain ⟨table, htable, h⟩ := bind_ok_iff.mp h
    cases h
    exact ⟨_, ‹_›, mapError_ok_iff.mp htable⟩
  · cases h

theorem holdsCode_of_checkBody {a : RawAttribute}
    (h : checkBody pool access name descriptor a.info = .ok ()) :
    a.HoldsCode pool descriptor (AccessFlag.isStatic.isIn access) := by
  obtain ⟨body, hbody, h⟩ := bind_ok_iff.mp h
  obtain ⟨stackMap, hmap, h⟩ := bind_ok_iff.mp h
  exact ⟨body, stackMap, mapError_ok_iff.mp hbody, stackMapOf_eq_ok hmap, mapError_ok_iff.mp h⟩

/-- An attribute holds the first code, or leaves it as it was whether code was seen. -/
theorem checkMethodAttribute_eq_ok {seen found : List String} {a : RawAttribute}
    (h : checkMethodAttribute pool access name descriptor seen a = .ok found) :
    (a.name? pool = some "Code" ∧ "Code" ∉ seen ∧ found = "Code" :: seen ∧
        checkBody pool access name descriptor a.info = .ok ()) ∨
      a.name? pool ≠ some "Code" ∧ found.count "Code" = seen.count "Code" := by
  obtain ⟨text, htext, h⟩ := bind_ok_iff.mp h
  have hname : a.name? pool = some text := textAt_eq_ok.mp (mapError_ok_iff.mp htext)
  rw [hname]
  split at h
  · rename_i hcode
    subst hcode
    obtain ⟨hseen, h⟩ := ite_error_ok_iff.mp h
    obtain ⟨⟨⟩, hbody, h⟩ := bind_ok_iff.mp h
    cases h
    exact Or.inl ⟨rfl, hseen, rfl, hbody⟩
  · rename_i hother
    refine Or.inr ⟨fun heq => hother (Option.some_inj.mp heq), ?_⟩
    split at h
    · rename_i hsignature
      subst hsignature
      obtain ⟨-, h⟩ := ite_error_ok_iff.mp h
      split at h
      · cases h
      · obtain ⟨signature, -, h⟩ := bind_ok_iff.mp h
        obtain ⟨-, h⟩ := ite_else_error_ok_iff.mp h
        cases h
        exact List.count_cons_of_ne (by decide)
    · obtain ⟨-, h⟩ := ite_error_ok_iff.mp h
      cases h
      rfl

/-- There are as many code attributes as were entered, which is one at most, and all are accepted. -/
theorem code_of_foldlM {seen found : List String} {attributes : List RawAttribute}
    (h : attributes.foldlM (checkMethodAttribute pool access name descriptor) seen = .ok found)
    (hseen : seen.count "Code" ≤ 1) :
    found.count "Code" = seen.count "Code" + (RawAttribute.withName pool "Code" attributes).length ∧
      found.count "Code" ≤ 1 ∧ ∀ a ∈ RawAttribute.withName pool "Code" attributes,
        a.HoldsCode pool descriptor (AccessFlag.isStatic.isIn access) := by
  induction attributes generalizing seen with
  | nil =>
    cases h
    exact ⟨rfl, hseen, nofun⟩
  | cons a attributes ih =>
    rw [List.foldlM_cons, bind_ok_iff] at h
    obtain ⟨next, ha, h⟩ := h
    unfold RawAttribute.withName at ih ⊢
    rcases checkMethodAttribute_eq_ok ha with ⟨hname, hfresh, rfl, hbody⟩ | ⟨hname, hcount⟩
    · have hnone : seen.count "Code" = 0 := List.count_eq_zero.mpr hfresh
      have hone : ("Code" :: seen).count "Code" = 1 := by rw [List.count_cons_self, hnone]
      obtain ⟨hfound, hle, hcode⟩ := ih h hone.le
      rw [List.filter_cons_of_pos (by simp [hname]), List.length_cons, List.forall_mem_cons]
      exact ⟨by omega, hle, holdsCode_of_checkBody hbody, hcode⟩
    · rw [List.filter_cons_of_neg (by simpa using hname), ← hcount]
      exact ih h (hcount ▸ hseen)

theorem checkHasCode_eq_ok {m : Member} {hasCode : Bool} (h : checkHasCode m.access hasCode = .ok ()) :
    hasCode = m.needsCode := by
  unfold checkHasCode at h
  unfold Member.needsCode
  split at h
  · rename_i hnone
    cases hasCode with
    | true => cases h
    | false => rw [hnone]; rfl
  · rename_i hsome
    cases hasCode with
    | true => rw [Bool.not_eq_true _ |>.mp hsome]; rfl
    | false => cases h

theorem code_of_checkHasCode {m : Member} {entered : List String}
    (hattributes : m.attributes.foldlM (checkMethodAttribute pool m.access name descriptor) [] =
      .ok entered)
    (h : checkHasCode m.access (entered.contains "Code") = .ok ()) :
    (m.needsCode = true → ∃ a, RawAttribute.withName pool "Code" m.attributes = [a] ∧
        a.HoldsCode pool descriptor (AccessFlag.isStatic.isIn m.access)) ∧
      (m.needsCode = false → RawAttribute.withName pool "Code" m.attributes = []) := by
  obtain ⟨hcount, hle, hcode⟩ := code_of_foldlM hattributes (Nat.zero_le 1)
  rw [List.count_nil, Nat.zero_add] at hcount
  have hentered : "Code" ∈ entered ↔ m.needsCode = true := by
    rw [← List.contains_iff_mem, checkHasCode_eq_ok h]
  constructor
  · intro hneed
    have hpos := List.count_pos_iff.mpr (hentered.mpr hneed)
    obtain ⟨a, ha⟩ := List.length_eq_one_iff.mp (hcount.symm.trans (le_antisymm hle hpos))
    exact ⟨a, ha, hcode a (ha ▸ List.mem_singleton_self a)⟩
  · intro hneed
    have hnone : "Code" ∉ entered := fun hmem => by rw [hentered.mp hmem] at hneed; cases hneed
    rw [List.count_eq_zero.mpr hnone] at hcount
    exact List.length_eq_zero_iff.mp hcount.symm

theorem checkMethod_eq_ok {seen found : MemberNames} {m : Member}
    (h : checkMethod cf seen m = .ok found) : ∃ name descriptor, m.IsMethod cf.pool name descriptor ∧
      (name, descriptor) ∉ seen ∧ found = seen.insert (name, descriptor) := by
  obtain ⟨-, h⟩ := ite_error_ok_iff.mp h
  obtain ⟨name, hname, h⟩ := bind_ok_iff.mp h
  obtain ⟨descriptor, hdescriptor, h⟩ := bind_ok_iff.mp h
  split at h
  · cases h
  · cases h
  · rename_i d hsplit
    obtain ⟨-, h⟩ := ite_error_ok_iff.mp h
    obtain ⟨hseen, h⟩ := ite_error_ok_iff.mp h
    obtain ⟨entered, hattributes, h⟩ := bind_ok_iff.mp h
    obtain ⟨⟨⟩, hhasCode, h⟩ := bind_ok_iff.mp h
    cases h
    obtain ⟨hcode, hnoCode⟩ := code_of_checkHasCode hattributes hhasCode
    exact ⟨name, descriptor, ⟨names_eq hname hdescriptor, ⟨d, hsplit⟩, hcode, hnoCode⟩, hseen, rfl⟩

theorem verify_eq_ok (h : verify cf = .ok ()) :
    checkPool cf = .ok () ∧ checkClassName cf.pool cf.thisClass = .ok () ∧
      checkSuperclass cf = .ok () ∧ checkFields cf = .ok () ∧ checkMethods cf = .ok () := by
  unfold verify at h
  dsimp only at h
  obtain ⟨-, h⟩ := guard_ok_iff.mp h
  obtain ⟨-, h⟩ := guard_ok_iff.mp h
  obtain ⟨⟨⟩, hpool, h⟩ := bind_ok_iff.mp h
  obtain ⟨-, h⟩ := guard_ok_iff.mp h
  obtain ⟨⟨⟩, hthis, h⟩ := bind_ok_iff.mp h
  obtain ⟨⟨⟩, hsuper, h⟩ := bind_ok_iff.mp h
  obtain ⟨⟨⟩, -, h⟩ := bind_ok_iff.mp h
  obtain ⟨⟨⟩, hfields, h⟩ := bind_ok_iff.mp h
  obtain ⟨⟨⟩, hmethods, -⟩ := bind_ok_iff.mp h
  exact ⟨mapError_ok_iff.mp hpool, hthis, hsuper, mapError_ok_iff.mp hfields,
    mapError_ok_iff.mp hmethods⟩

/-- Whatever an accepted class file refers to is there, and its members can be told apart. -/
theorem closed_of_verify (h : verify cf = .ok ()) : cf.Closed := by
  obtain ⟨hpool, hthis, hsuper, hfields, hmethods⟩ := verify_eq_ok h
  obtain ⟨_, hfields, -⟩ := bind_ok_iff.mp hfields
  obtain ⟨_, hmethods, -⟩ := bind_ok_iff.mp hmethods
  refine ⟨closed_of_checkPool hpool, ?_, ?_, ?_, ?_, ?_, ?_⟩
  · obtain ⟨name, hname, hthis⟩ := bind_ok_iff.mp hthis
    obtain ⟨hinternal, -⟩ := ite_else_error_ok_iff.mp hthis
    exact ⟨name, classAt_eq_ok.mp (mapError_ok_iff.mp hname), hinternal⟩
  · intro hzero
    rw [checkSuperclass, if_pos hzero] at hsuper
    obtain ⟨hroot, -⟩ := ite_else_error_ok_iff.mp hsuper
    rw [Bool.or_eq_true, beq_iff_eq] at hroot
    exact hroot.symm
  · intro f hf
    obtain ⟨_, _, hstep⟩ := exists_step_of_foldlM hfields hf
    obtain ⟨name, descriptor, hfield, -⟩ := checkField_eq_ok hstep
    exact ⟨name, descriptor, hfield⟩
  · refine (nodup_names_of_foldlM (fun hstep => ?_) hfields).1
    obtain ⟨name, descriptor, hfield, hseen⟩ := checkField_eq_ok hstep
    exact ⟨name, descriptor, hfield.names, hseen⟩
  · intro m hm
    obtain ⟨_, _, hstep⟩ := exists_step_of_foldlM hmethods hm
    obtain ⟨name, descriptor, hmethod, -⟩ := checkMethod_eq_ok hstep
    exact ⟨name, descriptor, hmethod⟩
  · refine (nodup_names_of_foldlM (fun hstep => ?_) hmethods).1
    obtain ⟨name, descriptor, hmethod, hseen⟩ := checkMethod_eq_ok hstep
    exact ⟨name, descriptor, hmethod.names, hseen⟩

theorem closed_of_verify_box : ∃ cf, Lowering.classFile 51 ClassModel.box = .ok cf ∧
    verify cf = .ok () ∧ cf.Closed := by
  obtain ⟨cf, hclass⟩ := ClassModel.exists_classFile_box
  have hverify := ClassModel.wellFormed_box.verify_ok (by decide) hclass
  exact ⟨cf, hclass, hverify, closed_of_verify hverify⟩

end Verification

end BeanClass
