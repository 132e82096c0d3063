import ClassXref.Proofs.Bytes.SelfDelimiting
import ClassXref.Proofs.ClassFile.RoundTrip

/-! Where a class file ends. Each part of it is self-delimiting, an attribute because its length is
compared with what is left before its body is looked at. So a class file that is cut short is always
reported as cut short, wherever the cut lies, and one with something behind it is reported with the
count of what is behind it. -/
namespace ClassXref

open BigEndian (digits)
open Scan (Reads Starves SelfDelimiting starves_bind starves_bind_front selfDelimiting_bind
  selfDelimiting_ite selfDelimiting_liftM selfDelimiting_pure selfDelimiting_throw
  selfDelimiting_u8 selfDelimiting_u16 selfDelimiting_u32)

/-! ### The constant pool -/

theorem Constant.selfDelimiting_index (build : UInt16 → Constant) :
    SelfDelimiting (do return build (← Scan.u16)) :=
  selfDelimiting_bind selfDelimiting_u16 fun _ => selfDelimiting_pure _

theorem Constant.selfDelimiting_pair (build : UInt16 → UInt16 → Constant) :
    SelfDelimiting (do return build (← Scan.u16) (← Scan.u16)) :=
  selfDelimiting_bind selfDelimiting_u16 fun first => selfDelimiting_index (build first)

theorem Constant.selfDelimiting_readBody (kind : ConstantKind) :
    SelfDelimiting (Constant.readBody kind) := by
  cases kind with
  | utf8 =>
    exact selfDelimiting_bind selfDelimiting_u16 fun length =>
      selfDelimiting_bind (Scan.selfDelimiting_utf8 length.toNat) fun _ => selfDelimiting_pure _
  | integer => exact selfDelimiting_bind Scan.selfDelimiting_i32 fun _ => selfDelimiting_pure _
  | float => exact selfDelimiting_bind selfDelimiting_u32 fun _ => selfDelimiting_pure _
  | long | double =>
    exact selfDelimiting_bind Scan.selfDelimiting_u64 fun _ => selfDelimiting_pure _
  | classRef | string | methodType | module | package => exact selfDelimiting_index _
  | fieldRef | methodRef | interfaceMethodRef | nameAndType | dynamic | invokeDynamic =>
    exact selfDelimiting_pair _
  | methodHandle =>
    exact selfDelimiting_bind selfDelimiting_u8 fun handle => selfDelimiting_index _

theorem Constant.selfDelimiting_read (slot : Nat) : SelfDelimiting (Constant.read slot) := by
  refine selfDelimiting_bind selfDelimiting_u8 fun tag => ?_
  cases ConstantKind.ofTag? tag with
  | none => exact selfDelimiting_throw _
  | some kind => exact selfDelimiting_readBody kind

theorem Pool.selfDelimiting_readSlots (count : Nat) (slots : Array (Option Constant)) :
    SelfDelimiting (Pool.readSlots count slots) := by
  induction slots using Pool.readSlots.induct count with
  | case1 slots hopen ihWide ihNarrow =>
    rw [Pool.readSlots, if_pos hopen]
    refine selfDelimiting_bind (Constant.selfDelimiting_read slots.size) fun constant => ?_
    by_cases hwide : constant.isWide = true
    · rw [if_pos hwide]
      by_cases hroom : slots.size + 1 < count
      · rw [if_pos hroom]
        exact ihWide constant hroom
      · rw [if_neg hroom]
        exact selfDelimiting_throw _
    · rw [if_neg hwide]
      exact ihNarrow constant
  | case2 slots hfull =>
    rw [Pool.readSlots, if_neg hfull]
    exact selfDelimiting_pure slots

theorem Pool.selfDelimiting_read (count : UInt16) : SelfDelimiting (Pool.read count) :=
  selfDelimiting_ite (selfDelimiting_throw _)
    (selfDelimiting_bind (selfDelimiting_readSlots count.toNat #[none]) fun _ =>
      selfDelimiting_pure _)

namespace ClassFile

variable {α β σ : Type} {pool : Pool}

/-! ### Tables and attributes -/

theorem selfDelimiting_table {entry : Scan α} (h : SelfDelimiting entry) :
    SelfDelimiting (table entry) :=
  selfDelimiting_bind selfDelimiting_u16 fun count => Scan.selfDelimiting_times h count.toNat

theorem selfDelimiting_className (pool : Pool) : SelfDelimiting (className pool) :=
  selfDelimiting_bind selfDelimiting_u16 fun _ => selfDelimiting_liftM _

theorem selfDelimiting_text (pool : Pool) : SelfDelimiting (text pool) :=
  selfDelimiting_bind selfDelimiting_u16 fun _ => selfDelimiting_liftM _

theorem starves_text (index : UInt16) : Starves (text pool) (encodeIndex index) :=
  starves_bind_front (Scan.starves_u16 index)

/-- The length of an attribute is compared with what is left before its body is looked at. -/
theorem starves_attribute {body : String → σ → Scan σ} {name : UInt16} {found : String}
    {content : List UInt8} {s : σ} (hname : pool.utf8 name = .ok found)
    (hlength : FitsLength content.length) :
    Starves (readAttribute pool body s) (encodeAttribute name content) := by
  have hcount := UInt32.toNat_ofNat_of_lt' hlength
  have hstarves := Scan.starves_u32 (UInt32.ofNat content.length)
  rw [hcount] at hstarves
  rw [encodeAttribute, List.append_assoc]
  refine starves_bind (reads_text hname) (starves_text name) (starves_bind
    (Scan.reads_u32_ofNat hlength) hstarves (Scan.starves_position_bind fun start => ?_))
  intro c missing hmissing hc
  have hshort : c.remaining < (UInt32.ofNat content.length).toNat := by
    have hpos := List.length_pos_iff.mpr hmissing
    rw [hcount, ← hc, List.length_append, Cursor.length_rest]
    omega
  rw [Scan.remaining_bind, if_pos hshort]
  exact ⟨_, _, _, _, rfl⟩

/-- Before the body of an accepted attribute stood its name and its length, and the body was read within
that length. -/
theorem body_of_readAttribute_eq_ok {body : String → σ → Scan σ} {s t : σ} {c d : Cursor}
    (hok : readAttribute pool body s c = .ok t d) :
    ∃ (name : UInt16) (found : String) (length : UInt32) (start stop : Cursor),
      pool.utf8 name = .ok found ∧
      c.rest = encodeIndex name ++ (digits 4 length.toNat ++ start.rest) ∧
      length.toNat ≤ start.remaining ∧ body found s start = .ok t stop ∧
      stop.position ≤ start.position + length.toNat := by
  obtain ⟨found, c₁, htext, hok⟩ := Stateful.bind_eq_ok_iff.mp hok
  obtain ⟨name, c₁', hindex, hlookup⟩ := Stateful.bind_eq_ok_iff.mp htext
  obtain ⟨hname, rfl⟩ := Stateful.liftM_eq_ok_iff.mp hlookup
  obtain ⟨rfl, tail₁, hrest⟩ := Scan.rest_of_u16_eq_ok hindex
  obtain ⟨length, start, hu32, hok⟩ := Stateful.bind_eq_ok_iff.mp hok
  obtain ⟨rfl, tail₂, hrest₁⟩ := Scan.rest_of_u32_eq_ok hu32
  have htail₁ := Scan.rest_advance_append hrest
  have htail₂ := Scan.rest_advance_append hrest₁
  rw [BigEndian.length_digits] at htail₁ htail₂
  rw [Scan.position_bind, Scan.remaining_bind] at hok
  split at hok
  · exact absurd hok Stateful.throw_ne_ok
  · next hlong =>
    obtain ⟨u, stop, hbody, hok⟩ := Stateful.bind_eq_ok_iff.mp hok
    rw [Scan.position_bind] at hok
    split at hok
    · exact absurd hok Stateful.throw_ne_ok
    · next hwithin =>
      obtain ⟨-, _, -, hok⟩ := Stateful.bind_eq_ok_iff.mp hok
      obtain ⟨rfl, -⟩ := Stateful.pure_eq_ok_iff.mp hok
      refine ⟨name, found, length, _, stop, hname, ?_, Nat.not_lt.mp hlong, hbody,
        Nat.not_lt.mp hwithin⟩
      rw [htail₂, ← hrest₁, htail₁]
      exact hrest

/-- An attribute that was accepted stood there as its name, its length and its body, and its reader
was content with the front of the body. -/
theorem encodes_of_readAttribute_eq_ok {body : String → σ → Scan σ}
    (h : ∀ found s, SelfDelimiting (body found s)) {s t : σ} {c d : Cursor}
    (hok : readAttribute pool body s c = .ok t d) :
    ∃ name found front back tail, pool.utf8 name = .ok found ∧ Reads (body found s) front t ∧
      FitsLength (front ++ back).length ∧
      c.rest = encodeAttribute name (front ++ back) ++ tail := by
  obtain ⟨name, found, length, start, stop, hname, hrest, hlong, hbody, hwithin⟩ :=
    body_of_readAttribute_eq_ok hok
  obtain ⟨front, tail, hfront, hreads, -⟩ := h found s _ _ _ hbody
  rw [hreads _ _ hfront, EStateM.Result.ok.injEq] at hbody
  obtain ⟨-, rfl⟩ := hbody
  have hle : front.length ≤ length.toNat := by
    rw [Cursor.position_advance] at hwithin
    omega
  have hroom : length.toNat - front.length ≤ tail.length := by
    rw [← Cursor.length_rest, hfront, List.length_append] at hlong
    omega
  have hcontent : (front ++ tail.take (length.toNat - front.length)).length = length.toNat := by
    rw [List.length_append, List.length_take, Nat.min_eq_left hroom]
    omega
  refine ⟨name, found, front, tail.take (length.toNat - front.length),
    tail.drop (length.toNat - front.length), hname, hreads, ?_, ?_⟩
  · rw [FitsLength, hcontent]
    exact length.toNat_lt
  · rw [encodeAttribute, hcontent, hrest, hfront]
    simp only [List.append_assoc, List.take_append_drop]

theorem selfDelimiting_readAttribute {body : String → σ → Scan σ}
    (h : ∀ found s, SelfDelimiting (body found s)) (s : σ) :
    SelfDelimiting (readAttribute pool body s) := by
  intro c d t hok
  obtain ⟨name, found, front, back, tail, hname, hreads, hlength, hrest⟩ :=
    encodes_of_readAttribute_eq_ok h hok
  exact ⟨_, tail, hrest, reads_attribute hname hlength hreads, starves_attribute hname hlength⟩

theorem selfDelimiting_readAttributes {body : String → σ → Scan σ}
    (h : ∀ found s, SelfDelimiting (body found s)) (start : σ) :
    SelfDelimiting (readAttributes pool body start) :=
  selfDelimiting_bind selfDelimiting_u16 fun count =>
    Scan.selfDelimiting_iterate (selfDelimiting_readAttribute h) count.toNat start

theorem selfDelimiting_skipAttributes (pool : Pool) : SelfDelimiting (skipAttributes pool) :=
  selfDelimiting_readAttributes (fun _ _ => selfDelimiting_pure ()) ()

/-! ### Fields and methods -/

theorem selfDelimiting_field (pool : Pool) : SelfDelimiting (field pool) :=
  selfDelimiting_bind selfDelimiting_u16 fun _ =>
    selfDelimiting_bind (selfDelimiting_text pool) fun _ =>
      selfDelimiting_bind (selfDelimiting_text pool) fun _ =>
        selfDelimiting_bind (selfDelimiting_skipAttributes pool) fun _ => selfDelimiting_pure _

theorem selfDelimiting_handler (pool : Pool) : SelfDelimiting (handler pool) :=
  selfDelimiting_bind selfDelimiting_u16 fun _ => selfDelimiting_bind selfDelimiting_u16 fun _ =>
    selfDelimiting_bind selfDelimiting_u16 fun _ => selfDelimiting_bind selfDelimiting_u16 fun _ =>
      selfDelimiting_ite (selfDelimiting_pure _)
        (selfDelimiting_bind (selfDelimiting_liftM _) fun _ => selfDelimiting_pure _)

theorem selfDelimiting_code (pool : Pool) : SelfDelimiting (code pool) :=
  selfDelimiting_bind selfDelimiting_u16 fun _ => selfDelimiting_bind selfDelimiting_u16 fun _ =>
    selfDelimiting_bind selfDelimiting_u32 fun length =>
      selfDelimiting_ite (selfDelimiting_throw _)
        (selfDelimiting_bind (Scan.selfDelimiting_take length.toNat) fun _ =>
          selfDelimiting_bind (selfDelimiting_table (selfDelimiting_handler pool)) fun _ =>
            selfDelimiting_bind (selfDelimiting_skipAttributes pool) fun _ => selfDelimiting_pure _)

theorem selfDelimiting_methodAttribute (pool : Pool) (name descriptor found : String)
    (body : MethodBody) : SelfDelimiting (methodAttribute pool name descriptor found body) := by
  refine selfDelimiting_ite (selfDelimiting_ite (selfDelimiting_throw _) ?_)
    (selfDelimiting_ite ?_ (selfDelimiting_pure _))
  · exact selfDelimiting_bind (selfDelimiting_code pool) fun _ => selfDelimiting_pure _
  · exact selfDelimiting_bind (selfDelimiting_table (selfDelimiting_className pool)) fun _ =>
      selfDelimiting_pure _

theorem selfDelimiting_method (pool : Pool) : SelfDelimiting (method pool) :=
  selfDelimiting_bind selfDelimiting_u16 fun _ =>
    selfDelimiting_bind (selfDelimiting_text pool) fun name =>
      selfDelimiting_bind (selfDelimiting_text pool) fun descriptor =>
        selfDelimiting_bind
          (selfDelimiting_readAttributes (selfDelimiting_methodAttribute pool name descriptor) {})
          fun _ => selfDelimiting_pure _

/-! ### The class -/

theorem selfDelimiting_bootstrapMethod : SelfDelimiting bootstrapMethod :=
  selfDelimiting_bind selfDelimiting_u16 fun _ =>
    selfDelimiting_bind (selfDelimiting_table selfDelimiting_u16) fun _ => selfDelimiting_pure _

theorem selfDelimiting_classAttribute (found : String) (earlier : List BootstrapMethod) :
    SelfDelimiting (classAttribute found earlier) :=
  selfDelimiting_ite (selfDelimiting_table selfDelimiting_bootstrapMethod) (selfDelimiting_pure _)

theorem selfDelimiting_superName (pool : Pool) (name : String) (access : ClassAccess) :
    SelfDelimiting (superName pool name access) :=
  selfDelimiting_bind selfDelimiting_u16 fun _ =>
    selfDelimiting_ite (selfDelimiting_ite (selfDelimiting_pure _) (selfDelimiting_throw _))
      (selfDelimiting_bind (selfDelimiting_liftM _) fun _ => selfDelimiting_pure _)

theorem selfDelimiting_header : SelfDelimiting header :=
  selfDelimiting_bind selfDelimiting_u32 fun _ => selfDelimiting_ite (selfDelimiting_throw _)
    (selfDelimiting_bind selfDelimiting_u16 fun _ => selfDelimiting_bind selfDelimiting_u16 fun _ =>
      selfDelimiting_ite (selfDelimiting_throw _) (selfDelimiting_pure _))

/-! ### The end of the buffer -/

/-- Where more than `bytes` is left, `scan` fails and counts what is behind them. -/
def RefusesMore (scan : Scan α) (bytes : List UInt8) : Prop :=
  ∀ (c : Cursor) (more : List UInt8), more ≠ [] → c.rest = bytes ++ more →
    ∃ d, scan c = .error (.malformed (.trailingBytes more.length)) d

/-- What `scan` accepts is all that was left: it would have refused less and more. -/
def Exhausting (scan : Scan α) : Prop :=
  ∀ (c d : Cursor) (a : α), scan c = .ok a d → Starves scan c.rest ∧ RefusesMore scan c.rest

theorem exhausting_bind {scan : Scan α} {next : α → Scan β} (h : SelfDelimiting scan)
    (h' : ∀ a, Exhausting (next a)) : Exhausting (scan >>= next) := by
  intro c e b hok
  obtain ⟨a, d, hscan, hnext⟩ := Stateful.bind_eq_ok_iff.mp hok
  obtain ⟨bytes, tail, hc, hreads, hstarves⟩ := h c d a hscan
  rw [hreads c tail hc, EStateM.Result.ok.injEq] at hscan
  obtain ⟨-, rfl⟩ := hscan
  obtain ⟨hshort, hmore⟩ := h' a _ e b hnext
  rw [Scan.rest_advance_append hc] at hshort hmore
  rw [hc]
  refine ⟨starves_bind hreads hstarves hshort, fun c' more hnonempty hc' => ?_⟩
  rw [List.append_assoc] at hc'
  obtain ⟨d, herror⟩ := hmore _ more hnonempty (Scan.rest_advance_append hc')
  exact ⟨d, by rw [Stateful.bind_ok (hreads c' _ hc'), herror]⟩

theorem atEnd_of_rest_ne_nil {c : Cursor} (h : c.rest ≠ []) :
    atEnd c = .error (.malformed (.trailingBytes c.rest.length)) c := by
  have hleft : c.remaining ≠ 0 := by
    rw [← Cursor.length_rest]
    exact Nat.ne_of_gt (List.length_pos_iff.mpr h)
  rw [atEnd, Scan.remaining_bind, if_neg hleft, Cursor.length_rest]
  rfl

theorem exhausting_atEnd (a : α) : Exhausting (do atEnd; return a) := by
  intro c d b hok
  by_cases hnil : c.rest = []
  · rw [hnil]
    refine ⟨Scan.starves_nil _, fun c' more hmore hc' => ⟨c', ?_⟩⟩
    rw [List.nil_append] at hc'
    rw [Stateful.bind_error (atEnd_of_rest_ne_nil (hc' ▸ hmore)), hc']
  · rw [Stateful.bind_error (atEnd_of_rest_ne_nil hnil)] at hok
    cases hok

theorem exhausting_scan : Exhausting scan :=
  exhausting_bind selfDelimiting_header fun _ => exhausting_bind selfDelimiting_u16 fun count =>
    exhausting_bind (Pool.selfDelimiting_read count) fun pool =>
      exhausting_bind selfDelimiting_u16 fun access =>
        exhausting_bind (selfDelimiting_className pool) fun name =>
          exhausting_bind (selfDelimiting_superName pool name ⟨access⟩) fun _ =>
            exhausting_bind (selfDelimiting_table (selfDelimiting_className pool)) fun _ =>
              exhausting_bind (selfDelimiting_table (selfDelimiting_field pool)) fun _ =>
                exhausting_bind (selfDelimiting_table (selfDelimiting_method pool)) fun _ =>
                  exhausting_bind (selfDelimiting_readAttributes selfDelimiting_classAttribute [])
                    fun _ => exhausting_atEnd _

/-! ### Buffers -/

theorem rest_start (data : ByteArray) : Cursor.rest { data } = data.data.toList := by
  rw [Cursor.rest, List.drop_zero]

theorem parse_eq_error {data : ByteArray} {e : Fault} {d : Cursor}
    (h : scan { data } = .error e d) : parse data = .error e := by
  rw [parse, Scan.run, EStateM.run, h]

theorem exhausting_parse {data : ByteArray} {file : ClassFile} (h : parse data = .ok file) :
    Starves scan data.data.toList ∧ RefusesMore scan data.data.toList := by
  rw [← rest_start]
  cases hscan : scan { data } with
  | ok found d => exact exhausting_scan _ d found hscan
  | error e d =>
    rw [parse_eq_error hscan] at h
    cases h

/-- An accepted class file is neither cut short nor drawn out without notice: every proper front part of
it is truncated input, wherever the cut lies, and whatever follows it is counted as trailing bytes. -/
theorem parse_cut_or_extended {data : ByteArray} {file : ClassFile} (accepted : parse data = .ok file) :
    (∀ n < data.size, ∃ offset needed remaining,
      parse (data.extract 0 n) = .error (.truncated offset needed remaining)) ∧
    (∀ more : ByteArray, more.size ≠ 0 →
      parse (data ++ more) = .error (.malformed (.trailingBytes more.size))) := by
  obtain ⟨hstarves, hmore⟩ := exhausting_parse accepted
  constructor
  · intro n hn
    have hfront : Cursor.rest { data := data.extract 0 n } = data.data.toList.take n := by
      rw [rest_start]
      simp
    have hmissing : data.data.toList.drop n ≠ [] := by
      rw [ne_eq, List.drop_eq_nil_iff]
      exact Nat.not_le.mpr hn
    obtain ⟨offset, needed, remaining, d, herror⟩ :=
      hstarves _ _ hmissing (by rw [hfront, List.take_append_drop])
    exact ⟨offset, needed, remaining, parse_eq_error herror⟩
  · intro more hsize
    have hrest : Cursor.rest { data := data ++ more } = data.data.toList ++ more.data.toList := by
      rw [rest_start]
      simp
    have hnonempty : more.data.toList ≠ [] := by
      intro hnil
      exact hsize (congrArg List.length hnil)
    obtain ⟨d, herror⟩ := hmore _ _ hnonempty hrest
    exact parse_eq_error herror

/-- `sample` cut inside its constant pool, and `sample` with a byte behind it. -/
theorem parse_sample_cut_or_extended : parse sample.encode.toByteArray = .ok sampleContent ∧
    (∃ offset needed remaining, parse (sample.encode.toByteArray.extract 0 20) =
      .error (.truncated offset needed remaining)) ∧
    parse (sample.encode.toByteArray ++ [0].toByteArray) = .error (.malformed (.trailingBytes 1)) := by
  have haccepted := Scan.run_eq_ok (readsToEnd_scan sample_fits sample_resolve)
  have hsize : 20 < sample.encode.toByteArray.size := by
    rw [List.size_toByteArray]
    decide +kernel
  obtain ⟨hcut, hextended⟩ := parse_cut_or_extended haccepted
  exact ⟨haccepted, hcut 20 hsize, hextended [0].toByteArray (by decide)⟩

end ClassFile

end ClassXref
