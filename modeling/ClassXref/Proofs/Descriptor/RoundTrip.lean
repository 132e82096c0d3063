import ClassXref.Descriptor.Reader
import ClassXref.Proofs.Stateful
import Mathlib.Data.List.TakeWhile

/-! Reading back descriptors that `render` wrote, and what other texts the reader takes. A class name
ends at the first semicolon, so a name that holds one cannot be written, and no array has more than 255
dimensions. The reader takes `void` wherever a type may stand, and any text behind a descriptor; that a
field is not `void` is checked after reading. -/
namespace ClassXref

/-- A name without the character that ends it. -/
def BaseType.Writable : BaseType → Prop
  | object name => ';' ∉ name.toList
  | _ => True

structure TypeDescriptor.Writable (t : TypeDescriptor) : Prop where
  dimensions : t.dimensions ≤ DescriptorItem.maxDimensions
  base : t.base.Writable

structure MethodDescriptor.Writable (d : MethodDescriptor) : Prop where
  parameters : ∀ p ∈ d.parameters, p.Writable
  result : d.result.Writable

instance : (b : BaseType) → Decidable b.Writable
  | .object name => inferInstanceAs (Decidable (';' ∉ name.toList))
  | .primitive _ | .void => inferInstanceAs (Decidable True)

instance (t : TypeDescriptor) : Decidable t.Writable :=
  decidable_of_iff (_ ∧ _) ⟨fun ⟨h₁, h₂⟩ => ⟨h₁, h₂⟩, fun ⟨h₁, h₂⟩ => ⟨h₁, h₂⟩⟩

instance (d : MethodDescriptor) : Decidable d.Writable :=
  decidable_of_iff (_ ∧ _) ⟨fun ⟨h₁, h₂⟩ => ⟨h₁, h₂⟩, fun ⟨h₁, h₂⟩ => ⟨h₁, h₂⟩⟩

theorem BaseType.read_object {name : String} (h : ';' ∉ name.toList) (rest : List Char) :
    read ('L' :: (name.toList ++ ';' :: rest)) = .ok (some (.object name), rest) := by
  have hname : ∀ c ∈ name.toList, (c != ';') = true := by
    intro c hc
    rw [bne_iff_ne]
    rintro rfl
    exact h hc
  have htake : (name.toList ++ ';' :: rest).takeWhile (· != ';') = name.toList := by
    rw [List.takeWhile_append_of_pos hname, List.takeWhile_cons_of_neg (by simp), List.append_nil]
  have hdrop : (name.toList ++ ';' :: rest).dropWhile (· != ';') = ';' :: rest := by
    rw [List.dropWhile_append_of_pos hname, List.dropWhile_cons_of_neg (by simp)]
  simp only [read, htake, hdrop, String.ofList_toList]

theorem BaseType.read_render {b : BaseType} (h : b.Writable) (rest : List Char) :
    read (b.render ++ rest) = .ok (some b, rest) := by
  cases b with
  | primitive p => cases p <;> rfl
  | void => rfl
  | object name =>
    have hread := read_object h rest
    rw [render, List.cons_append, List.append_assoc]
    exact hread

theorem BaseType.render_head (b : BaseType) (rest : List Char) :
    ∃ c text, b.render ++ rest = c :: text ∧ c ≠ '[' := by
  cases b with
  | primitive p => cases p <;> exact ⟨_, rest, rfl, by decide⟩
  | void => exact ⟨'V', rest, rfl, by decide⟩
  | object name => exact ⟨'L', _, rfl, by decide⟩

/-- The brackets of an array end where its base type begins. -/
theorem DescriptorItem.read_render {t : TypeDescriptor} (h : t.Writable) (rest : List Char) :
    read (t.render ++ rest) = .ok (.type t, rest) := by
  obtain ⟨c, text, hbase, hc⟩ := t.base.render_head rest
  have hbrackets : ∀ b ∈ List.replicate t.dimensions '[', (b == '[') = true := by
    intro b hb
    rw [List.eq_of_mem_replicate hb]
    rfl
  have htake : (t.render ++ rest).takeWhile (· == '[') = List.replicate t.dimensions '[' := by
    rw [TypeDescriptor.render, List.append_assoc, List.takeWhile_append_of_pos hbrackets, hbase,
      List.takeWhile_cons_of_neg (by simpa using hc), List.append_nil]
  have hdrop : (t.render ++ rest).dropWhile (· == '[') = t.base.render ++ rest := by
    rw [TypeDescriptor.render, List.append_assoc, List.dropWhile_append_of_pos hbrackets, hbase,
      List.dropWhile_cons_of_neg (by simpa using hc)]
  rw [read, htake, hdrop, List.length_replicate, if_neg (Nat.not_lt.mpr h.dimensions),
    BaseType.read_render h.base rest]
  rfl

theorem TypeDescriptor.read_render {t : TypeDescriptor} (h : t.Writable) :
    read t.render = .ok t := by
  have hitem := DescriptorItem.read_render h []
  rw [List.append_nil] at hitem
  rw [read, hitem]
  rfl

namespace MethodDescriptor

theorem readParameters_render {parameters : List TypeDescriptor}
    (h : ∀ p ∈ parameters, p.Writable) (done : List TypeDescriptor) (rest : List Char) :
    readParameters done (parameters.flatMap TypeDescriptor.render ++ ')' :: rest) =
      .ok (done.reverse ++ parameters, rest) := by
  induction parameters generalizing done with
  | nil =>
    rw [List.flatMap_nil, List.nil_append, List.append_nil, readParameters]
    split
    · next t rest' heq => cases heq
    · next rest' heq => cases heq; rfl
    · next flaw heq => cases heq
  | cons p parameters ih =>
    have hp := DescriptorItem.read_render (h p List.mem_cons_self)
      (parameters.flatMap TypeDescriptor.render ++ ')' :: rest)
    have htail := ih (fun q hq => h q (List.mem_cons_of_mem p hq)) (p :: done)
    rw [List.reverse_cons, List.append_assoc, List.singleton_append] at htail
    rw [List.flatMap_cons, List.append_assoc, readParameters]
    split
    · next t rest' heq =>
      rw [hp] at heq
      cases heq
      exact htail
    · next rest' heq =>
      rw [hp] at heq
      cases heq
    · next flaw heq =>
      rw [hp] at heq
      cases heq

theorem read_render {d : MethodDescriptor} (h : d.Writable) : read d.render = .ok d := by
  have hparameters := readParameters_render h.parameters [] d.result.render
  rw [render, read, hparameters]
  dsimp only [bind, Except.bind]
  rw [TypeDescriptor.read_render h.result]
  rfl

end MethodDescriptor

/-! ### What the reader accepts -/

theorem BaseType.render_of_ofLetter? {c : Char} {b : BaseType} (h : ofLetter? c = some b) :
    b.render = [c] ∧ b.Writable := by
  unfold ofLetter? at h
  split at h
  all_goals cases h
  all_goals exact ⟨rfl, trivial⟩

/-- What was read is written in the text, `none` as the closing parenthesis. -/
theorem BaseType.of_read {text rest : List Char} {base : Option BaseType}
    (h : read text = .ok (base, rest)) :
    text = base.elim [')'] render ++ rest ∧ ∀ b, base = some b → b.Writable := by
  unfold read at h
  split at h
  · cases h
  · cases h
    exact ⟨rfl, fun b hb => nomatch hb⟩
  · next text =>
    split at h
    · next c tail hdrop =>
      cases h
      have hend : c = ';' := by
        have hhead := List.head_dropWhile_not (· != ';') (l := text) (by rw [hdrop]; simp)
        simpa [hdrop] using hhead
      have hsplit := List.takeWhile_append_dropWhile (p := (· != ';')) (l := text)
      rw [hdrop, hend] at hsplit
      refine ⟨?_, ?_⟩
      · rw [Option.elim_some, render, String.toList_ofList, List.cons_append, List.append_assoc,
          List.singleton_append, hsplit]
      · rintro b ⟨⟩
        change ';' ∉ (String.ofList _).toList
        rw [String.toList_ofList]
        intro hmem
        have := List.mem_takeWhile_imp hmem
        simp at this
    · cases h
  · next c text _ _ =>
    split at h
    · next b hb =>
      cases h
      obtain ⟨hrender, hwritable⟩ := render_of_ofLetter? hb
      refine ⟨?_, ?_⟩
      · rw [Option.elim_some, hrender, List.singleton_append]
      · rintro _ ⟨⟩
        exact hwritable
    · cases h

namespace DescriptorItem

def render : DescriptorItem → List Char
  | type t => t.render
  | close => [')']

def Writable : DescriptorItem → Prop
  | type t => t.Writable
  | close => True

theorem of_read {text rest : List Char} {item : DescriptorItem} (h : read text = .ok (item, rest)) :
    text = item.render ++ rest ∧ item.Writable := by
  have hbrackets : text.takeWhile (· == '[') =
      List.replicate (text.takeWhile (· == '[')).length '[' := by
    refine List.eq_replicate_of_mem fun c hc => ?_
    have hbracket : (c == '[') = true := List.mem_takeWhile_imp (p := (· == '[')) hc
    exact beq_iff_eq.mp hbracket
  have hsplit := List.takeWhile_append_dropWhile (p := (· == '[')) (l := text)
  unfold read at h
  generalize hn : (text.takeWhile (· == '[')).length = n at h hbrackets
  dsimp only at h
  by_cases hmany : maxDimensions < n
  · rw [if_pos hmany] at h
    cases h
  · rw [if_neg hmany] at h
    obtain ⟨⟨base, rest'⟩, hbase, h⟩ := Stateful.verdict_bind_eq_ok_iff.mp h
    obtain ⟨hrest, hwritable⟩ := BaseType.of_read hbase
    rw [hbrackets, hrest] at hsplit
    cases base with
    | some b =>
      cases h
      refine ⟨?_, Nat.not_lt.mp hmany, hwritable b rfl⟩
      rw [← hsplit, render, TypeDescriptor.render, List.append_assoc, Option.elim_some]
    | none =>
      dsimp only at h
      by_cases hzero : n = 0
      · rw [if_pos hzero] at h
        cases h
        rw [hzero] at hsplit
        exact ⟨hsplit.symm, trivial⟩
      · rw [if_neg hzero] at h
        cases h

end DescriptorItem

/-- The reader takes what `render` writes and does not look at what stands behind it. -/
theorem TypeDescriptor.read_eq_ok_iff {text : List Char} {t : TypeDescriptor} :
    read text = .ok t ↔ t.Writable ∧ t.render <+: text := by
  constructor
  · intro h
    obtain ⟨⟨item, rest⟩, hitem, hread⟩ := Stateful.verdict_bind_eq_ok_iff.mp h
    obtain ⟨rfl, hwritable⟩ := DescriptorItem.of_read hitem
    cases item with
    | type t' =>
      cases hread
      exact ⟨hwritable, List.prefix_append _ _⟩
    | close => cases hread
  · rintro ⟨hwritable, rest, rfl⟩
    rw [read, DescriptorItem.read_render hwritable rest]
    rfl

namespace MethodDescriptor

theorem of_readParameters {done parameters : List TypeDescriptor} {text rest : List Char}
    (h : readParameters done text = .ok (parameters, rest)) :
    ∃ found, parameters = done.reverse ++ found ∧ (∀ p ∈ found, p.Writable) ∧
      text = found.flatMap TypeDescriptor.render ++ ')' :: rest := by
  fun_induction readParameters done text with
  | case1 done text t rest' hitem ih =>
    obtain ⟨rfl, hwritable⟩ := DescriptorItem.of_read hitem
    obtain ⟨found, rfl, hfound, rfl⟩ := ih h
    refine ⟨t :: found, by simp, List.forall_mem_cons.mpr ⟨hwritable, hfound⟩, ?_⟩
    rw [DescriptorItem.render, List.flatMap_cons, List.append_assoc]
  | case2 done text rest' hitem =>
    obtain ⟨rfl, -⟩ := DescriptorItem.of_read hitem
    cases h
    exact ⟨[], by simp, by simp, rfl⟩
  | case3 done text flaw hitem => cases h

theorem read_eq_ok_iff {text : List Char} {d : MethodDescriptor} :
    read text = .ok d ↔ d.Writable ∧ d.render <+: text := by
  constructor
  · intro h
    unfold read at h
    split at h
    · obtain ⟨⟨parameters, rest⟩, hparameters, h⟩ := Stateful.verdict_bind_eq_ok_iff.mp h
      obtain ⟨result, hresult, h⟩ := Stateful.verdict_bind_eq_ok_iff.mp h
      cases h
      obtain ⟨found, rfl, hfound, rfl⟩ := of_readParameters hparameters
      obtain ⟨hwritable, behind, rfl⟩ := TypeDescriptor.read_eq_ok_iff.mp hresult
      refine ⟨⟨hfound, hwritable⟩, behind, ?_⟩
      simp [render]
    · cases h
  · rintro ⟨hwritable, rest, rfl⟩
    have hparameters := readParameters_render hwritable.parameters [] (d.result.render ++ rest)
    have hresult := TypeDescriptor.read_eq_ok_iff.mpr ⟨hwritable.result, List.prefix_append _ rest⟩
    rw [render, List.cons_append, List.append_assoc, List.cons_append, read, hparameters]
    dsimp only [bind, Except.bind]
    rw [hresult]
    rfl

end MethodDescriptor

/-! ### Classes that a descriptor mentions -/

namespace Descriptor

variable {text : String} {names : List String}

theorem methodClasses_eq_ok_iff :
    methodClasses text = .ok names ↔
      ∃ d, MethodDescriptor.read text.toList = .ok d ∧ d.classNames = names := by
  rw [methodClasses]
  cases MethodDescriptor.read text.toList with
  | ok d => simp
  | error flaw => simp

theorem methodClasses_eq_error_iff {e : Fault} :
    methodClasses text = .error e ↔
      ∃ flaw, MethodDescriptor.read text.toList = .error flaw ∧
        .malformed (.methodDescriptor text flaw) = e := by
  rw [methodClasses]
  cases MethodDescriptor.read text.toList with
  | ok d => simp
  | error flaw => simp

theorem fieldClasses_eq_ok_iff :
    fieldClasses text = .ok names ↔
      ∃ t, TypeDescriptor.read text.toList = .ok t ∧ t ≠ ⟨0, .void⟩ ∧ t.className?.toList = names := by
  rw [fieldClasses]
  cases TypeDescriptor.read text.toList with
  | ok t => by_cases hvoid : t = ⟨0, .void⟩ <;> simp [hvoid]
  | error flaw => simp

/-- The classes of a method's descriptor are those of the signature that it writes. -/
theorem methodClasses_render {d : MethodDescriptor} (h : d.Writable) :
    methodClasses (String.ofList d.render) = .ok d.classNames := by
  rw [methodClasses_eq_ok_iff, String.toList_ofList]
  exact ⟨d, MethodDescriptor.read_render h, rfl⟩

/-- The class of a field's descriptor is that of the type that it writes. -/
theorem fieldClasses_render {t : TypeDescriptor} (h : t.Writable) (hvoid : t ≠ ⟨0, .void⟩) :
    fieldClasses (String.ofList t.render) = .ok t.className?.toList := by
  rw [fieldClasses_eq_ok_iff, String.toList_ofList]
  exact ⟨t, TypeDescriptor.read_render h, hvoid, rfl⟩

end Descriptor
end ClassXref
