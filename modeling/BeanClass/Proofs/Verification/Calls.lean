import BeanClass.Proofs.ClassFile.RoundTrip
import BeanClass.Proofs.Pool.Operations
import BeanClass.Proofs.Verification.ClassFile
import BeanClass.Proofs.Verification.Visits

/-! # Classes with a call

For any descriptor there are a class file with a method of that descriptor and one with a method that
calls it. Both can be read if the descriptor can be written, and nothing else is wrong with them: what
the call fails with is what verification fails with.
-/

namespace BeanClass.Verification

open ConstantPool

/-- An offset that is visited for the first time is stepped from. -/
theorem walk_of_new {ctx : CodeContext} {visited : Array (Option UInt16)} {pc : Nat} {depth : UInt16}
    {work : List (Nat × UInt16)} (hpc : pc < visited.size) (hnew : visited[pc] = none) :
    ctx.walk visited ((pc, depth) :: work) = (ctx.step pc depth >>= fun next =>
      ctx.walk (visited.set pc (some depth)) (next ++ work)) := by
  rw [CodeContext.walk, dif_pos hpc]
  split
  · rename_i hseen
    rw [hnew] at hseen
    cases hseen
  · split
    · rename_i hstep
      rw [hstep]
      rfl
    · rename_i hstep
      rw [hstep, ok_bind]

/-- A class is refused for its methods if nothing before them is wrong. -/
theorem verify_of_checkMethods {cf : ClassFile} {e : MethodError} (hmagic : cf.magic = classMagic)
    (hmajor : isSupportedMajor cf.major = true) (hpool : checkPool cf = .ok ())
    (haccess : isClassAccess cf.thisName? cf.access = true)
    (hthis : checkClassName cf.pool cf.thisClass = .ok ()) (hsuper : checkSuperclass cf = .ok ())
    (hinterfaces : checkInterfaces cf = .ok ()) (hfields : checkFields cf = .ok ())
    (h : checkMethods cf = .error e) : verify cf = .error (.method e) := by
  simp [verify, hmagic, hmajor, hpool, haccess, hthis, hsuper, hinterfaces, hfields, h, Except.mapError]
  rfl

namespace Call

variable (descriptor : String)

/-- The root class, the name and the descriptor of a method in it, and a reference to a method of the
same name that has the other descriptor. -/
def constants : List Constant :=
  [.utf8 "java/lang/Object", .classRef 1, .utf8 "m", .utf8 "()V", .utf8 "Code", .utf8 descriptor,
    .nameAndType 3 6, .methodRef 2 7]

def pool : ConstantPool :=
  .ofConstants (constants descriptor)

/-- The receiver is loaded, and the method of the other descriptor is called. -/
def body : CodeAttribute where
  maxStack := 1
  maxLocals := 1
  code := [0x2A, 0xB7, 0, 8, 0xB1]
  exceptions := []
  attributes := []

/-- A method without a body that has the descriptor. -/
def native : Member :=
  ⟨0x101, 3, 6, []⟩

/-- A method that calls the one with the descriptor. -/
def caller : Member :=
  ⟨1, 3, 4, [⟨5, body.encode⟩]⟩

/-- The root class with the given methods. -/
def classFile (methods : List Member) : ClassFile where
  magic := classMagic
  minor := 0
  major := 51
  pool := pool descriptor
  access := 0x21
  thisClass := 2
  superClass := 0
  interfaces := []
  fields := []
  methods := methods
  attributes := []

/-- The table of the body. -/
def table : CodeTable :=
  #[some ⟨.loadAt .reference 0, 0, none⟩, some ⟨.invokeSpecial, 8, none⟩, none, none,
    some ⟨.ret none, 0, none⟩]

def context : CodeContext where
  pool := pool descriptor
  maxStack := 1
  maxLocals := 1
  result := none
  table := table
  frames := Array.replicate 5 none

/-! ## The constants -/

theorem slots_pool : (pool descriptor).slots = ((constants descriptor).map some).toArray :=
  slots_ofConstants (by simp [constants, Constant.isWide]) (by simp [constants, maxCount])

theorem get?_pool (i : UInt16) : (pool descriptor).get? i =
    if i = 0 then none else (constants descriptor)[i.toNat - 1]? :=
  get?_ofConstants (by simp [constants, Constant.isWide]) (by simp [constants, maxCount]) i

theorem utf8?_pool (i : UInt16) : (pool descriptor).utf8? i =
    match if i = 0 then none else (constants descriptor)[i.toNat - 1]? with
    | some (.utf8 text) => some text
    | _ => none := by
  rw [← get?_pool]
  rfl

theorem className?_pool : (pool descriptor).className? 2 = some "java/lang/Object" := by
  unfold className? utf8?
  simp only [get?_pool]
  rfl

theorem nameAndType?_pool : (pool descriptor).nameAndType? 7 = some ("m", descriptor) := by
  unfold nameAndType? utf8?
  simp only [get?_pool]
  rfl

theorem memberDescriptor_pool :
    memberDescriptor (pool descriptor) 8 isMethodRef = .ok descriptor := by
  have hmethod : (pool descriptor).get? 8 = some (.methodRef 2 7) := get?_pool descriptor 8
  refine memberDescriptor_eq_ok.mpr ⟨?_, ?_⟩
  · rw [hmethod]
    rfl
  · rw [memberRef?, hmethod]
    simp [className?_pool, nameAndType?_pool]

/-- Every constant refers to constants of the right kind. -/
theorem checkPool_pool {cf : ClassFile} (h : cf.pool = pool descriptor) : checkPool cf = .ok () := by
  refine checkPool_eq_ok.mpr fun c hc => ?_
  rw [h, slots_pool] at hc
  rw [h]
  simp only [constants, List.mem_toArray, List.mem_map, Option.some_inj, exists_eq_right,
    List.mem_cons, List.not_mem_nil, or_false] at hc
  rcases hc with rfl | rfl | rfl | rfl | rfl | rfl | rfl | rfl
  · rfl
  · exact checkConstant_ok _ ⟨_, utf8?_pool descriptor 1⟩
  · rfl
  · rfl
  · rfl
  · rfl
  · exact checkConstant_ok _ ⟨⟨"m", utf8?_pool descriptor 3⟩, descriptor, utf8?_pool descriptor 6⟩
  · exact checkConstant_ok _ ⟨⟨_, className?_pool descriptor⟩, _, nameAndType?_pool descriptor⟩

variable {descriptor} {methods : List Member} {e : CodeError}

/-- The pool can be written if the descriptor can. -/
theorem text_le (hdescriptor : (Text.encode descriptor.toList).length ≤ maxText) {text : String}
    (h : some (.utf8 text) ∈ (pool descriptor).slots) :
    (Text.encode text.toList).length ≤ maxText := by
  rw [slots_pool] at h
  simp only [constants, List.mem_toArray, List.mem_map, Option.some_inj, exists_eq_right,
    List.mem_cons, List.not_mem_nil, or_false, Constant.utf8.injEq, reduceCtorEq, false_or] at h
  rcases h with rfl | rfl | rfl | rfl | rfl
  · decide
  · decide
  · decide
  · decide
  · exact hdescriptor

/-! ## The class files -/

theorem fits_body : body.Fits :=
  ⟨by decide, by decide, by decide, nofun⟩

theorem decode_classFile (hlength : (Text.encode descriptor.toList).length ≤ maxText)
    (hmethods : methods.length < 0x10000) (hattributes : ∀ m ∈ methods, RawAttribute.AllFit m.attributes) :
    ClassFile.decode (classFile descriptor methods).encode = .ok (classFile descriptor methods) := by
  have hencodable : (classFile descriptor methods).Encodable := {
    magic := rfl
    pool := reachable_ofConstants _
    texts := fun _ => text_le hlength
    interfaces := Nat.zero_lt_succ _
    fields := ⟨Nat.zero_lt_succ _, nofun⟩
    methods := ⟨hmethods, hattributes⟩
    attributes := ⟨Nat.zero_lt_succ _, nofun⟩ }
  exact ClassFile.decode_encode hencodable.fits

theorem decode_native (hlength : (Text.encode descriptor.toList).length ≤ maxText) :
    ClassFile.decode (classFile descriptor [native]).encode = .ok (classFile descriptor [native]) :=
  decode_classFile hlength (by decide)
    (List.forall_mem_singleton.mpr ⟨Nat.zero_lt_succ _, nofun⟩)

theorem decode_caller (hlength : (Text.encode descriptor.toList).length ≤ maxText) :
    ClassFile.decode (classFile descriptor [caller]).encode = .ok (classFile descriptor [caller]) := by
  refine decode_classFile hlength (by decide) (List.forall_mem_singleton.mpr ⟨by decide, ?_⟩)
  exact List.forall_mem_singleton.mpr (by decide : body.encode.length < 0x100000000)

/-- The methods are all that can be wrong with the class. -/
theorem verify_classFile {e : MethodError} (h : checkMethods (classFile descriptor methods) = .error e) :
    verify (classFile descriptor methods) = .error (.method e) := by
  have hpool : checkPool (classFile descriptor methods) = .ok () := checkPool_pool descriptor rfl
  have hname : (classFile descriptor methods).thisName? = some "java/lang/Object" :=
    className?_pool descriptor
  have haccess : isClassAccess (classFile descriptor methods).thisName? 0x21 = true := by
    rw [hname]
    decide
  have hthis : checkClassName (pool descriptor) 2 = .ok () := by
    have hinternal : isInternalName "java/lang/Object".toList = true := by decide
    rw [checkClassName, classAt_eq_ok.mpr (className?_pool _), mapError_ok, ok_bind, if_pos hinternal]
  have hsuper : checkSuperclass (classFile descriptor methods) = .ok () := by
    have hroot : (some "java/lang/Object" == some "java/lang/Object") = true := by decide
    rw [checkSuperclass, hname, hroot, Bool.or_true]
    rfl
  exact verify_of_checkMethods rfl rfl hpool haccess hthis hsuper rfl rfl h

/-- The receiver is loaded before the call is reached. -/
theorem visits_call : Visits (context descriptor) 1 1 :=
  .step (s := (1, 1)) .start rfl List.mem_cons_self

/-- The call fails if the other descriptor cannot be cut or its slots cannot be counted. -/
theorem effect_call (descriptor : String) :
    (context descriptor).effect 1 ⟨.invokeSpecial, 8, none⟩ = (splitDescriptor descriptor >>= fun d =>
      countSlots (1 + d.parameterSum) >>= fun pop =>
        .ok (pop, (resultKind d.result).elim 0 ValueKind.slots)) := by
  simp only [CodeContext.effect, context, memberDescriptor_pool, ok_bind, calledSlots_eq]

theorem checkCode_body (h : (context descriptor).effect 1 ⟨.invokeSpecial, 8, none⟩ = .error e) :
    checkCode (pool descriptor) body "()V" false none = .error e := by
  have hsplit : splitDescriptor "()V" = .ok ⟨[], "V"⟩ := by decide
  have hneeded : neededSlots ⟨[], "V"⟩ false = .ok 1 := rfl
  have hdecode : decodeCode body.code = .ok table := by decide
  have hload : (context descriptor).step 0 0 = .ok [(1, 1)] := rfl
  have hcall : (context descriptor).step 1 1 = .error e := by
    have hdepth : (context descriptor).depthAfter 1 1 ⟨.invokeSpecial, 8, none⟩ = .error e := by
      rw [CodeContext.depthAfter, h]
      rfl
    have hstep : (context descriptor).step 1 1 = ((context descriptor).depthAfter 1 1
        ⟨.invokeSpecial, 8, none⟩ >>= (context descriptor).successors 1 ⟨.invokeSpecial, 8, none⟩) := rfl
    rw [hstep, hdepth]
    rfl
  have hwalk : (context descriptor).walk (Array.replicate 5 none) [(0, 0)] = .error e := by
    have hlater : (context descriptor).walk ((Array.replicate 5 none).set 0 (some 0)) [(1, 1)] =
        .error e := by
      rw [walk_of_new (by decide) rfl, hcall]
      rfl
    rw [walk_of_new (by decide) rfl, hload]
    exact hlater
  rw [checkCode, hsplit, ok_bind, hneeded, ok_bind, if_neg (by decide), hdecode]
  exact hwalk

theorem checkMethods_caller (h : (context descriptor).effect 1 ⟨.invokeSpecial, 8, none⟩ = .error e) :
    checkMethods (classFile descriptor [caller]) = .error (.code "m" e) := by
  have hname : textAt (pool descriptor) 3 = .ok "m" := textAt_eq_ok.mpr (utf8?_pool _ 3)
  have htext : textAt (pool descriptor) 4 = .ok "()V" := textAt_eq_ok.mpr (utf8?_pool _ 4)
  have hattribute : textAt (pool descriptor) 5 = .ok "Code" := textAt_eq_ok.mpr (utf8?_pool _ 5)
  have haccess : isMethodAccess 0x21 1 = true := by decide
  have hsplit : MethodDescriptor.split "()V" = .ok ⟨[], "V"⟩ := by decide
  have hcheck : checkBody (pool descriptor) 1 "m" "()V" body.encode = .error (.code "m" e) := by
    have hstatic : AccessFlag.isStatic.isIn 1 = false := by decide
    have hmap : stackMapOf (pool descriptor) body = .ok none := rfl
    rw [checkBody, CodeAttribute.decode_encode fits_body, mapError_ok, ok_bind, hmap, ok_bind, hstatic,
      checkCode_body h]
    rfl
  simp [checkMethods, checkMethod, checkMethodAttribute, classFile, caller, haccess, hname, htext,
    hattribute, hsplit, hcheck]
  rfl

/-- Whatever the call fails with is what verification fails with. -/
theorem verify_caller (h : (context descriptor).effect 1 ⟨.invokeSpecial, 8, none⟩ = .error e) :
    verify (classFile descriptor [caller]) = .error (.method (.code "m" e)) :=
  verify_classFile (checkMethods_caller h)

end Call

end BeanClass.Verification
