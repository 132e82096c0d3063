import ClassXref.Pool.Resolve
import ClassXref.Proofs.Stateful

/-! The faults of lookups in the constant pool. A lookup has only the indices and the constants of the
pool to complain of, so no fault of one says where the reading of a file or of code has got to. -/
namespace ClassXref

/-- Faults of a reference that designates nothing. They name an index or a text, and no place. -/
def Fault.OfReference : Fault → Prop
  | badIndex _ | wrongKind _ _ _ | malformed _ => True
  | truncated _ _ _ | unknownTag _ _ | desync _ _ _ | unassignedOpcode _ _ _ => False

namespace Pool

open Stateful (FailsWith failsWith_bind failsWith_error failsWith_ite failsWith_ok)

variable (pool : Pool) (index : UInt16)

theorem failsWith_constant : FailsWith Fault.OfReference (pool.constant index) := by
  intro e h
  unfold constant at h
  split at h
  · cases h
  · cases h
    exact trivial

theorem failsWith_utf8 : FailsWith Fault.OfReference (pool.utf8 index) := by
  refine failsWith_bind (pool.failsWith_constant index) fun c => ?_
  cases c with
  | utf8 text => exact failsWith_ok text
  | _ => exact failsWith_error trivial

theorem failsWith_className : FailsWith Fault.OfReference (pool.className index) := by
  refine failsWith_bind (pool.failsWith_constant index) fun c => ?_
  cases c with
  | classRef i => exact pool.failsWith_utf8 i
  | _ => exact failsWith_error trivial

theorem failsWith_nameAndType : FailsWith Fault.OfReference (pool.nameAndType index) := by
  refine failsWith_bind (pool.failsWith_constant index) fun c => ?_
  cases c with
  | nameAndType i j =>
    exact failsWith_bind (pool.failsWith_utf8 i) fun _ =>
      failsWith_bind (pool.failsWith_utf8 j) fun _ => failsWith_ok _
  | _ => exact failsWith_error trivial

theorem failsWith_member (owner nameAndType : UInt16) :
    FailsWith Fault.OfReference (pool.member owner nameAndType) :=
  failsWith_bind (pool.failsWith_className owner) fun _ =>
    failsWith_bind (pool.failsWith_nameAndType nameAndType) fun _ => failsWith_ok _

theorem failsWith_fieldRef : FailsWith Fault.OfReference (pool.fieldRef index) := by
  refine failsWith_bind (pool.failsWith_constant index) fun c => ?_
  cases c with
  | fieldRef i j => exact pool.failsWith_member i j
  | _ => exact failsWith_error trivial

theorem failsWith_methodRef : FailsWith Fault.OfReference (pool.methodRef index) := by
  refine failsWith_bind (pool.failsWith_constant index) fun c => ?_
  cases c with
  | methodRef i j | interfaceMethodRef i j => exact pool.failsWith_member i j
  | _ => exact failsWith_error trivial

theorem failsWith_methodHandle : FailsWith Fault.OfReference (pool.methodHandle index) := by
  refine failsWith_bind (pool.failsWith_constant index) fun c => ?_
  cases c with
  | methodHandle kind i =>
    refine failsWith_ite ?_ (failsWith_ite ?_ (failsWith_error trivial))
    · exact failsWith_bind (pool.failsWith_fieldRef i) fun _ => failsWith_ok _
    · exact failsWith_bind (pool.failsWith_methodRef i) fun _ => failsWith_ok _
  | _ => exact failsWith_error trivial

theorem failsWith_methodType : FailsWith Fault.OfReference (pool.methodType index) := by
  refine failsWith_bind (pool.failsWith_constant index) fun c => ?_
  cases c with
  | methodType i => exact pool.failsWith_utf8 i
  | _ => exact failsWith_error trivial

end Pool

end ClassXref
