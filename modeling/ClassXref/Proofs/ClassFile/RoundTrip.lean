import ClassXref.ClassFile.Reader
import ClassXref.Proofs.ClassFile.Limits

/-! Reading back a class file that `ClassSource.encode` laid out. A table is read as its count and its
entries, and an attribute as its whole body, however little of the body its reader looks at. The main
statement says that a source within the limits is read as what it stands for. -/
namespace ClassXref

open BigEndian (digits)
open Stateful (verdict_bind_eq_ok_iff verdict_map_eq_ok_iff)
open Scan (Reads reads_bind reads_bind_pure reads_pure reads_liftM)

namespace ClassFile

variable {α β σ : Type} {pool : Pool}

/-! ### Tables and attributes -/

theorem reads_table {scan : Scan α} {encode : β → List UInt8} {resolve : β → Except Fault α}
    {xs : List β} {ys : List α} (hcount : FitsCount xs.length)
    (entry : ∀ x ∈ xs, ∀ y, resolve x = .ok y → Reads scan (encode x) y)
    (h : xs.mapM resolve = .ok ys) : Reads (table scan) (encodeTable encode xs) ys := by
  refine reads_bind (Scan.reads_u16_ofNat hcount) ?_
  rw [UInt16.toNat_ofNat_of_lt' hcount]
  exact Scan.reads_times entry h

theorem reads_className {index : UInt16} {name : String} (h : pool.className index = .ok name) :
    Reads (className pool) (encodeIndex index) name :=
  reads_bind_pure (Scan.reads_u16 index) (reads_liftM h)

theorem reads_text {index : UInt16} {name : String} (h : pool.utf8 index = .ok name) :
    Reads (text pool) (encodeIndex index) name :=
  reads_bind_pure (Scan.reads_u16 index) (reads_liftM h)

/-- An attribute is passed over as a whole once its reader is content with the front of its body. -/
theorem reads_attribute {body : String → σ → Scan σ} {name : UInt16} {found : String}
    {front back : List UInt8} {s t : σ} (hname : pool.utf8 name = .ok found)
    (hlength : FitsLength (front ++ back).length) (hbody : Reads (body found s) front t) :
    Reads (readAttribute pool body s) (encodeAttribute name (front ++ back)) t := by
  intro c tail hc
  have hname2 : c.rest = encodeIndex name ++ (digits 4 (front ++ back).length ++
      (front ++ (back ++ tail))) := by
    simpa only [encodeAttribute, List.append_assoc] using hc
  have hlength2 := Scan.rest_advance_append hname2
  have hcontent := Scan.rest_advance_append hlength2
  -- The name and the length put the cursor inside the buffer, also where the body is empty.
  have hsix : (encodeIndex name).length + (digits 4 (front ++ back).length).length ≤
      c.data.size - c.position := by
    rw [← List.length_append]
    exact Scan.length_le_remaining (by rw [hname2, List.append_assoc])
  have hleft := Scan.length_le_remaining  (by
    rw [hcontent, List.append_assoc])
  rw [readAttribute, Stateful.bind_ok (reads_text hname c _ hname2),
    Stateful.bind_ok (Scan.reads_u32_ofNat hlength _ _ hlength2), Scan.position_bind,
    Scan.remaining_bind, UInt32.toNat_ofNat_of_lt' hlength, if_neg (Nat.not_lt.mpr hleft),
    Stateful.bind_ok (hbody _ _ hcontent), Scan.position_bind]
  simp only [Cursor.position_advance, List.length_append] at hsix hleft ⊢
  rw [if_neg (by omega), Stateful.bind_ok (Scan.seek_eq_ok ?_)]
  · have hplace : c.position + (encodeIndex name).length +
        (digits 4 (front.length + back.length)).length + (front.length + back.length) =
          c.position + (encodeAttribute name (front ++ back)).length := by
      simp only [encodeAttribute, List.length_append, BigEndian.length_digits]
      omega
    rw [hplace]
    rfl
  · simp only [encodeIndex, BigEndian.length_digits] at hsix
    simp only [Cursor.data_advance, Cursor.remaining, Cursor.position_advance, encodeIndex,
      BigEndian.length_digits] at hleft ⊢
    omega

/-- An attribute whose reader looks at all of its body. -/
theorem reads_attribute_whole {body : String → σ → Scan σ} {name : UInt16} {found : String}
    {content : List UInt8} {s t : σ} (hname : pool.utf8 name = .ok found)
    (hlength : FitsLength content.length) (hbody : Reads (body found s) content t) :
    Reads (readAttribute pool body s) (encodeAttribute name content) t := by
  have hattribute : Reads (readAttribute pool body s) (encodeAttribute name (content ++ [])) t :=
    reads_attribute hname (by rw [List.append_nil]; exact hlength) hbody
  rwa [List.append_nil] at hattribute

theorem reads_attributes {body : String → σ → Scan σ} {encode : β → List UInt8}
    {update : σ → β → Except Fault σ} {xs : List β} {first last : σ} (hcount : FitsCount xs.length)
    (entry : ∀ x ∈ xs, ∀ s t, update s x = .ok t →
      Reads (readAttribute pool body s) (encode x) t)
    (h : xs.foldlM update first = .ok last) :
    Reads (readAttributes pool body first) (encodeTable encode xs) last := by
  refine reads_bind (Scan.reads_u16_ofNat hcount) ?_
  rw [UInt16.toNat_ofNat_of_lt' hcount]
  exact Scan.reads_iterate entry h

/-- An attribute that leaves the state alone is passed over, whatever its body. -/
theorem reads_raw {body : String → σ → Scan σ} {interpreted : List String} {a : RawAttribute}
    (ha : a.Fits pool interpreted)
    (hbody : ∀ found, found ∉ interpreted → ∀ s, body found s = pure s) (s : σ) :
    Reads (readAttribute pool body s) a.encode s := by
  obtain ⟨found, hname, hfound⟩ := ha.name
  have hskip : Reads (body found s) [] s := by
    rw [hbody found hfound]
    exact reads_pure s
  have hattribute : Reads (readAttribute pool body s) (encodeAttribute a.name ([] ++ a.body)) s :=
    reads_attribute hname (by rw [List.nil_append]; exact ha.length) hskip
  rwa [List.nil_append] at hattribute

theorem foldlM_ok_self (xs : List β) (s : σ) :
    xs.foldlM (fun s _ => .ok s : σ → β → Except Fault σ) s = .ok s := by
  induction xs with
  | nil => rfl
  | cons x xs ih => exact ih

theorem reads_skipAttributes {attributes : List RawAttribute} (hcount : FitsCount attributes.length)
    (hfits : ∀ a ∈ attributes, a.Fits pool []) :
    Reads (skipAttributes pool) (encodeTable RawAttribute.encode attributes) () := by
  refine reads_attributes hcount ?_ (foldlM_ok_self attributes ())
  intro a ha s t _
  exact reads_raw (hfits a ha) (fun _ _ _ => rfl) s

/-! ### Fields and methods -/

theorem reads_field {f : FieldSource} {field : Field} (hfits : f.Fits pool)
    (h : f.resolve pool = .ok field) : Reads (ClassFile.field pool) f.encode field := by
  obtain ⟨name, hname, h⟩ := verdict_bind_eq_ok_iff.mp h
  obtain ⟨descriptor, hdescriptor, h⟩ := verdict_bind_eq_ok_iff.mp h
  cases h
  have hskip := reads_skipAttributes hfits.attributeCount hfits.attributesFit
  rw [FieldSource.encode, List.append_assoc, List.append_assoc]
  exact reads_bind (Scan.reads_u16 f.access) (reads_bind (reads_text hname)
    (reads_bind (reads_text hdescriptor) (reads_bind_pure hskip (reads_pure _))))

theorem className?_eq_ok_iff {index : UInt16} {name : Option String} :
    pool.className? index = .ok name ↔
      (index = 0 ∧ name = none) ∨
        (index ≠ 0 ∧ ∃ found, pool.className index = .ok found ∧ name = some found) := by
  unfold Pool.className?
  split
  · next h => simp [h, eq_comm]
  · next h =>
    rw [verdict_map_eq_ok_iff]
    simp [h, eq_comm]

theorem reads_handler {h : HandlerSource} {handler : Handler} (hres : h.resolve pool = .ok handler) :
    Reads (ClassFile.handler pool) h.encode handler := by
  obtain ⟨catchType, hcatch, hres⟩ := verdict_bind_eq_ok_iff.mp hres
  cases hres
  rw [HandlerSource.encode, List.append_assoc, List.append_assoc]
  refine reads_bind (Scan.reads_u16 h.startPc) (reads_bind (Scan.reads_u16 h.endPc)
    (reads_bind (Scan.reads_u16 h.handlerPc) (reads_bind_pure (Scan.reads_u16 h.catchType) ?_)))
  rcases className?_eq_ok_iff.mp hcatch with ⟨hzero, rfl⟩ | ⟨hne, found, hfound, rfl⟩
  · rw [if_pos hzero]
    exact reads_pure _
  · rw [if_neg hne]
    exact reads_bind_pure (reads_liftM hfound) (reads_pure _)

theorem reads_code {c : CodeSource} {code : Code} (hfits : c.Fits pool)
    (h : c.resolve pool = .ok code) : Reads (ClassFile.code pool) c.encode code := by
  obtain ⟨handlers, hhandlers, h⟩ := verdict_bind_eq_ok_iff.mp h
  cases h
  have hlength : FitsLength c.bytes.length :=
    Nat.lt_trans hfits.byteCount (by decide)
  have hlen := UInt32.toNat_ofNat_of_lt' hlength
  have hnot : ¬ (UInt32.ofNat c.bytes.length = 0 ∨
      maxCodeLength < UInt32.ofNat c.bytes.length) := by
    have hpos := hfits.nonempty
    have hmax := hfits.byteCount
    unfold FitsCount at hmax
    have hzero : (0 : UInt32).toNat = 0 := rfl
    have hbound : maxCodeLength.toNat = 65535 := rfl
    rw [← UInt32.toNat_inj, UInt32.lt_iff_toNat_lt, hlen, hzero, hbound]
    omega
  have htable := reads_table hfits.handlerCount
    (fun x _ y hy => reads_handler (h := x) hy) hhandlers
  have hskip := reads_skipAttributes hfits.attributeCount hfits.attributesFit
  simp only [CodeSource.encode, List.append_assoc]
  refine reads_bind (Scan.reads_u16 c.maxStack) (reads_bind (Scan.reads_u16 c.maxLocals)
    (reads_bind (Scan.reads_u32_ofNat hlength) ?_))
  rw [if_neg hnot, hlen]
  exact reads_bind (Scan.reads_take c.bytes) (reads_bind htable (reads_bind_pure hskip
    (reads_pure _)))

/-- What an attribute adds to what the earlier ones of its method have contributed. -/
def MethodBody.update (pool : Pool) (name descriptor : String) (body : MethodBody) :
    MethodAttribute → Except Fault MethodBody
  | .code _ source =>
    if body.code.isSome then .error (.malformed (.secondCode name descriptor))
    else return { body with code := some (← source.resolve pool) }
  | .exceptions _ classes =>
    return { body with exceptions := body.exceptions ++ (← classes.mapM pool.className) }
  | .other _ => .ok body

theorem findSome?_code?_eq_none {attributes : List MethodAttribute}
    (h : attributes.countP MethodAttribute.isCode = 0) :
    attributes.findSome? MethodAttribute.code? = none := by
  rw [List.countP_eq_zero] at h
  rw [List.findSome?_eq_none_iff]
  intro a ha
  simpa [MethodAttribute.isCode] using h a ha

/-- The attributes of a method add up to all its exceptions and its one body. -/
theorem foldlM_update {name descriptor : String} {attributes : List MethodAttribute}
    {body : MethodBody} {exceptions : List String} {code : Option Code}
    (hone : attributes.countP MethodAttribute.isCode + body.code.toList.length ≤ 1)
    (hexceptions : (attributes.flatMap MethodAttribute.classes).mapM pool.className =
      .ok exceptions)
    (hcode : (attributes.findSome? MethodAttribute.code?).mapM (CodeSource.resolve pool) =
      .ok code) :
    attributes.foldlM (MethodBody.update pool name descriptor) body =
      .ok { exceptions := body.exceptions ++ exceptions, code := code.or body.code } := by
  induction attributes generalizing body exceptions code with
  | nil =>
    cases hexceptions
    cases hcode
    simp [pure, Except.pure]
  | cons a attributes ih =>
    rw [List.foldlM_cons, verdict_bind_eq_ok_iff]
    rw [List.flatMap_cons] at hexceptions
    obtain ⟨here, later, hhere, hlater, rfl⟩ :=
      Stateful.mapM_append_eq_ok_iff.mp hexceptions
    cases a with
    | code index source =>
      rw [List.countP_cons_of_pos rfl] at hone
      have hnone : body.code = none := by
        rw [← Option.toList_eq_nil_iff, ← List.length_eq_zero_iff]
        omega
      have hno : attributes.countP MethodAttribute.isCode = 0 := by omega
      have hrest : (attributes.findSome? MethodAttribute.code?).mapM (CodeSource.resolve pool) =
          .ok none := by
        rw [findSome?_code?_eq_none hno]
        rfl
      simp only [List.findSome?_cons, MethodAttribute.code?] at hcode
      rw [Option.mapM_some, verdict_map_eq_ok_iff] at hcode
      obtain ⟨c, hc, rfl⟩ := hcode
      cases hhere
      refine ⟨{ body with code := some c }, ?_, ?_⟩
      · rw [MethodBody.update, if_neg (by simp [hnone]), hc]
        rfl
      · rw [ih (by simp [hno]) hlater hrest]
        simp
    | exceptions index classes =>
      rw [List.countP_cons_of_neg (by simp [MethodAttribute.isCode, MethodAttribute.code?])] at hone
      simp only [MethodAttribute.classes] at hhere
      refine ⟨{ body with exceptions := body.exceptions ++ here }, ?_, ?_⟩
      · rw [MethodBody.update, hhere]
        rfl
      · have hone' : attributes.countP MethodAttribute.isCode +
            ({ body with exceptions := body.exceptions ++ here } : MethodBody).code.toList.length ≤ 1 :=
          hone
        rw [ih hone' hlater hcode, List.append_assoc]
    | other raw =>
      rw [List.countP_cons_of_neg (by simp [MethodAttribute.isCode, MethodAttribute.code?])] at hone
      cases hhere
      exact ⟨body, rfl, ih hone hlater hcode⟩

theorem reads_exceptions {classes : List UInt16} {names : List String}
    (hcount : FitsCount classes.length) (h : classes.mapM pool.className = .ok names) :
    Reads (table (className pool)) (encodeTable encodeIndex classes) names :=
  reads_table hcount (fun _ _ _ hy => reads_className hy) h

theorem length_encodeTable_index (indices : List UInt16) :
    (encodeTable encodeIndex indices).length = 2 + 2 * indices.length := by
  induction indices with
  | nil => rfl
  | cons i indices ih =>
    simp only [encodeTable, List.length_append, BigEndian.length_digits, List.flatMap_cons,
      encodeIndex, List.length_cons] at ih ⊢
    omega

theorem reads_methodAttribute {a : MethodAttribute} {name descriptor : String} {s t : MethodBody}
    (hfits : a.Fits pool) (h : s.update pool name descriptor a = .ok t) :
    Reads (readAttribute pool (methodAttribute pool name descriptor) s) a.encode t := by
  cases a with
  | code index source =>
    obtain ⟨hname, hsource⟩ := hfits
    rw [MethodBody.update] at h
    split at h
    · cases h
    · next hnone =>
      obtain ⟨c, hc, h⟩ := verdict_bind_eq_ok_iff.mp h
      cases h
      refine reads_attribute_whole hname hsource.length ?_
      rw [methodAttribute, if_pos rfl, if_neg hnone]
      exact reads_bind_pure (reads_code hsource hc) (reads_pure _)
  | exceptions index classes =>
    obtain ⟨hname, hcount⟩ := hfits
    obtain ⟨names, hnames, h⟩ := verdict_bind_eq_ok_iff.mp h
    cases h
    have hlength : FitsLength (encodeTable encodeIndex classes).length := by
      rw [length_encodeTable_index]
      unfold FitsCount at hcount
      unfold FitsLength
      omega
    refine reads_attribute_whole hname hlength ?_
    rw [methodAttribute, if_neg (by decide), if_pos rfl]
    exact reads_bind_pure (reads_exceptions hcount hnames) (reads_pure _)
  | other raw =>
    cases h
    refine reads_raw hfits (fun found hfound u => ?_) s
    simp only [MethodAttribute.interpreted, List.mem_cons, List.not_mem_nil, or_false,
      not_or] at hfound
    rw [methodAttribute, if_neg hfound.1, if_neg hfound.2]

theorem reads_method {m : MethodSource} {method : Method} (hfits : m.Fits pool)
    (h : m.resolve pool = .ok method) : Reads (ClassFile.method pool) m.encode method := by
  obtain ⟨name, hname, h⟩ := verdict_bind_eq_ok_iff.mp h
  obtain ⟨descriptor, hdescriptor, h⟩ := verdict_bind_eq_ok_iff.mp h
  obtain ⟨exceptions, hexceptions, h⟩ := verdict_bind_eq_ok_iff.mp h
  obtain ⟨code, hcode, h⟩ := verdict_bind_eq_ok_iff.mp h
  cases h
  have hbody : m.attributes.foldlM (MethodBody.update pool name descriptor) {} =
      .ok { exceptions := [] ++ exceptions, code := code.or none } :=
    foldlM_update (by simpa using hfits.atMostOneCode) hexceptions hcode
  have hattributes := reads_attributes hfits.attributeCount
    (fun a ha s t hst => reads_methodAttribute (hfits.attributesFit a ha) hst) hbody
  rw [MethodSource.encode, List.append_assoc, List.append_assoc]
  refine reads_bind (Scan.reads_u16 m.access) (reads_bind (reads_text hname)
    (reads_bind (reads_text hdescriptor) (reads_bind_pure hattributes ?_)))
  rw [List.nil_append, Option.or_none]
  exact reads_pure _

/-! ### Bootstrap methods -/

theorem mapM_ok_self (xs : List α) : xs.mapM (fun x => .ok x : α → Except Fault α) = .ok xs := by
  induction xs with
  | nil => rfl
  | cons x xs ih => exact Stateful.mapM_cons_eq_ok_iff.mpr ⟨x, xs, rfl, ih, rfl⟩

/-- A table whose entries are read as they stand. -/
theorem reads_plainTable {scan : Scan α} {encode : α → List UInt8} {xs : List α}
    (hcount : FitsCount xs.length) (entry : ∀ x ∈ xs, Reads scan (encode x) x) :
    Reads (table scan) (encodeTable encode xs) xs := by
  refine reads_table hcount (fun x hx y hy => ?_) (mapM_ok_self xs)
  cases hy
  exact entry x hx

theorem reads_bootstrapMethod {b : BootstrapMethod} (hcount : FitsCount b.arguments.length) :
    Reads bootstrapMethod b.encode b :=
  reads_bind (Scan.reads_u16 b.handle)
    (reads_bind_pure (reads_plainTable hcount fun i _ => Scan.reads_u16 i) (reads_pure _))

/-- What an attribute of a class makes of the bootstrap methods seen before it. -/
def replaceMethods (earlier : List BootstrapMethod) (a : ClassAttribute) :
    Except Fault (List BootstrapMethod) :=
  .ok (a.methods?.getD earlier)

theorem foldlM_replaceMethods (attributes : List ClassAttribute) (earlier : List BootstrapMethod) :
    attributes.foldlM replaceMethods earlier =
      .ok ((attributes.reverse.findSome? ClassAttribute.methods?).getD earlier) := by
  induction attributes generalizing earlier with
  | nil => rfl
  | cons a attributes ih =>
    have hstep : (a :: attributes).foldlM replaceMethods earlier =
        attributes.foldlM replaceMethods (a.methods?.getD earlier) := rfl
    rw [hstep, ih, List.reverse_cons, List.findSome?_append]
    cases (attributes.reverse.findSome? ClassAttribute.methods?) with
    | some methods => rfl
    | none => cases h : a.methods? <;> simp [h]

theorem reads_classAttribute {a : ClassAttribute} {s t : List BootstrapMethod}
    (hfits : a.Fits pool) (h : replaceMethods s a = .ok t) :
    Reads (readAttribute pool classAttribute s) a.encode t := by
  cases h
  cases a with
  | bootstrapMethods index methods =>
    obtain ⟨hname, hcount, harguments, hlength⟩ := hfits
    refine reads_attribute_whole hname hlength ?_
    rw [classAttribute, if_pos rfl]
    exact reads_plainTable hcount fun b hb => reads_bootstrapMethod (harguments b hb)
  | other raw =>
    refine reads_raw hfits (fun found hfound u => ?_) s
    simp only [ClassAttribute.interpreted, List.mem_singleton] at hfound
    rw [classAttribute, if_neg hfound]

/-! ### The whole file -/

theorem reads_header {minor major : UInt16} (hmin : minMajorVersion ≤ major)
    (hmax : major ≤ maxMajorVersion) :
    Reads header (digits 4 magic.toNat ++ (encodeIndex minor ++ encodeIndex major)) major := by
  refine reads_bind (Scan.reads_u32 magic) ?_
  rw [if_neg (by simp)]
  refine reads_bind (Scan.reads_u16 minor) (reads_bind_pure (Scan.reads_u16 major) ?_)
  rw [if_neg (by
    rw [not_or, UInt16.not_lt, UInt16.not_lt]
    exact ⟨hmin, hmax⟩)]
  exact reads_pure major

theorem reads_superName {index : UInt16} {name : String} {access : ClassAccess}
    {found : Option String} (h : pool.className? index = .ok found)
    (hnone : index = 0 → name = rootClass ∨ access.isModule = true) :
    Reads (superName pool name access) (encodeIndex index) found := by
  refine reads_bind_pure (Scan.reads_u16 index) ?_
  rcases className?_eq_ok_iff.mp h with ⟨hzero, rfl⟩ | ⟨hne, parent, hparent, rfl⟩
  · rw [if_pos hzero, if_pos (hnone hzero)]
    exact reads_pure none
  · rw [if_neg hne]
    exact reads_bind_pure (reads_liftM hparent) (reads_pure _)

/-- Nothing may follow a class file. -/
theorem readsToEnd_atEnd (a : α) : Scan.ReadsToEnd (do atEnd; return a) [] a := by
  intro c hc
  have hleft : c.remaining = 0 := by rw [← Cursor.length_rest, hc, List.length_nil]
  have hend : atEnd c = .ok () c := by
    rw [atEnd, Scan.remaining_bind, if_pos hleft]
    rfl
  exact ⟨c, by rw [Stateful.bind_ok hend]; rfl⟩

theorem readsToEnd_scan {s : ClassSource} {file : ClassFile} (hfits : s.Fits)
    (h : s.resolve = .ok file) : Scan.ReadsToEnd scan s.encode file := by
  obtain ⟨record, hrecord, h⟩ := verdict_bind_eq_ok_iff.mp h
  obtain ⟨fields, hfields, h⟩ := verdict_bind_eq_ok_iff.mp h
  obtain ⟨methods, hmethods, h⟩ := verdict_bind_eq_ok_iff.mp h
  cases h
  obtain ⟨name, hname, hrecord⟩ := verdict_bind_eq_ok_iff.mp hrecord
  obtain ⟨superName, hsuper, hrecord⟩ := verdict_bind_eq_ok_iff.mp hrecord
  obtain ⟨interfaces, hinterfaces, hrecord⟩ := verdict_bind_eq_ok_iff.mp hrecord
  cases hrecord
  have hnone : s.superClass = 0 →
      name = rootClass ∨ (⟨s.access⟩ : ClassAccess).isModule = true := by
    intro hzero
    rcases hfits.superClass hzero with hroot | hmodule
    · rw [hname] at hroot
      exact Or.inl (Except.ok.inj hroot)
    · exact Or.inr hmodule
  have hheader : Reads header (digits 4 magic.toNat ++
      (encodeIndex s.minorVersion ++ encodeIndex s.majorVersion)) s.majorVersion :=
    reads_header hfits.minMajor hfits.maxMajor
  have hpool := Pool.reads_pool hfits.poolSize hfits.constantsFit
  have hfieldTable := reads_table hfits.fieldCount
    (fun f hf y hy => reads_field (hfits.fieldsFit f hf) hy) hfields
  have hmethodTable := reads_table hfits.methodCount
    (fun m hm y hy => reads_method (hfits.methodsFit m hm) hy) hmethods
  have hattributes := reads_attributes hfits.attributeCount
    (fun a ha s t hst => reads_classAttribute (hfits.attributesFit a ha) hst)
    (foldlM_replaceMethods s.attributes [])
  simp only [ClassSource.encode, List.append_assoc]
  rw [← List.append_assoc (encodeIndex s.minorVersion), ← List.append_assoc (digits 4 magic.toNat)]
  refine Scan.readsToEnd_bind hheader (Scan.readsToEnd_bind
    (Scan.reads_u16_ofNat hfits.poolSize) (Scan.readsToEnd_bind hpool (Scan.readsToEnd_bind
    (Scan.reads_u16 s.access) (Scan.readsToEnd_bind (reads_className hname) (Scan.readsToEnd_bind
    (reads_superName hsuper hnone) (Scan.readsToEnd_bind
    (reads_exceptions hfits.interfaceCount hinterfaces) (Scan.readsToEnd_bind hfieldTable
    (Scan.readsToEnd_bind hmethodTable ?_))))))))
  rw [← List.append_nil (encodeTable ClassAttribute.encode s.attributes)]
  exact Scan.readsToEnd_bind hattributes (readsToEnd_atEnd _)

/-- A source within the limits, all of whose names resolve, is read as exactly what it stands for:
its record, major version and pool, its fields and methods in order with their exceptions and code,
and the bootstrap methods of its last table. -/
theorem parse_encode {s : ClassSource} {file : ClassFile} (fits : s.Fits)
    (resolved : s.resolve = .ok file) : parse s.encode.toByteArray = .ok file :=
  Scan.run_eq_ok (readsToEnd_scan fits resolved)

/-- A `tableswitch`, a `getstatic`, an `invokedynamic`, a widened load, an `ldc`, a `lookupswitch` and
a `return`. -/
def sampleBytes : List UInt8 :=
  [0xaa, 1, 2, 3, 0, 0, 0, 0, 0, 0, 0, 5, 0, 0, 0, 5, 9, 9, 9, 9, 0xb2, 0, 10, 0xba, 0, 16, 0, 0,
   0xc4, 0x15, 0, 7, 0x12, 2, 0xab, 0, 0, 0, 0, 0, 0, 0, 0, 1, 0, 0, 0, 4, 0, 0, 0, 0xff, 0xb1]

/-- A class with two methods, one of which has everything that a method can have, and with two tables
of bootstrap methods. The constant at index 5 takes two slots. -/
def sample : ClassSource where
  minorVersion := 3
  majorVersion := 52
  constants :=
    [.utf8 "a/Sample", .classRef 1, .utf8 "a/Base", .classRef 3, .long 7, .utf8 "item",
     .utf8 "[La/Item;", .nameAndType 7 8, .fieldRef 2 9, .utf8 "run", .utf8 "(La/Item;I)V",
     .nameAndType 11 12, .methodRef 4 13, .methodHandle 6 14, .invokeDynamic 0 13, .utf8 "a/Failure",
     .classRef 17, .utf8 "Code", .utf8 "Exceptions", .utf8 "BootstrapMethods", .utf8 "Deprecated"]
  access := 0x0021
  thisClass := 2
  superClass := 4
  interfaces := [4]
  fields := [⟨2, 7, 8, [⟨22, []⟩, ⟨19, [0xff]⟩]⟩]
  methods :=
    [⟨1, 11, 12,
      [.exceptions 20 [18],
       .code 19
        { maxStack := 2, maxLocals := 1
          bytes := sampleBytes
          handlers := [⟨0, 5, 8, 18⟩, ⟨0, 6, 8, 0⟩]
          attributes := [⟨22, [1, 2, 3]⟩] },
       .other ⟨22, [7]⟩, .exceptions 20 [4, 2]]⟩,
     ⟨0x0401, 11, 12, []⟩]
  attributes := [.bootstrapMethods 21 [], .other ⟨22, [0, 0]⟩, .bootstrapMethods 21 [⟨15, [18, 5]⟩],
    .other ⟨22, []⟩]

/-- What `sample` stands for. -/
def sampleContent : ClassFile where
  record := ⟨"a/Sample", some "a/Base", ["a/Base"], ⟨0x0021⟩⟩
  majorVersion := 52
  pool := sample.pool
  fields := [⟨2, "item", "[La/Item;"⟩]
  methods :=
    [⟨1, "run", "(La/Item;I)V", ["a/Failure", "a/Base", "a/Sample"],
      some
        { bytes := sampleBytes
          handlers := [⟨0, 5, 8, some "a/Failure"⟩, ⟨0, 6, 8, none⟩] }⟩,
     ⟨0x0401, "run", "(La/Item;I)V", [], none⟩]
  bootstrapMethods := [⟨15, [18, 5]⟩]

theorem sample_fits : sample.Fits := by
  decide

theorem sample_resolve : sample.resolve = .ok sampleContent := by
  rfl

theorem parse_encode_sample : sample.Fits ∧ sample.resolve = .ok sampleContent ∧
    parse sample.encode.toByteArray = .ok sampleContent :=
  ⟨sample_fits, sample_resolve, parse_encode sample_fits sample_resolve⟩

end ClassFile
end ClassXref
