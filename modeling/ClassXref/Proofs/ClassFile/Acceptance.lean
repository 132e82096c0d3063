import Mathlib.Data.List.Forall2
import ClassXref.Proofs.Bytes.Recovers
import ClassXref.Proofs.ClassFile.Layout
import ClassXref.Proofs.ClassFile.SelfDelimiting

/-! What an accepted class file must have been. Every part of the reader recovers the part of a layout
that it has read: a table its count and entries, an attribute its name, its declared length and its body
with the slack behind what was looked at. The main statement says that an accepted buffer is the encoding
of a layout within the limits that resolves to what was read, and where the code of its methods lies. -/
namespace ClassXref

open BigEndian (digits)
open Scan (Reads Recovers SelfDelimiting)

/-! ### The constant pool -/

namespace Pool

/-- The slots that were filled are those of some constants, up to the count. -/
theorem constants_of_readSlots {count : Nat} {slots found : Array (Option Constant)} {c d : Cursor}
    (hsize : slots.size ≤ count) (h : readSlots count slots c = .ok found d) :
    ∃ constants : List Constant, found = slots ++ (constants.flatMap Constant.slots).toArray ∧
      found.size = count := by
  induction slots using readSlots.induct count generalizing c with
  | case1 slots hopen ihWide ihNarrow =>
    rw [readSlots, if_pos hopen] at h
    obtain ⟨constant, c', -, h⟩ := Stateful.bind_eq_ok_iff.mp h
    by_cases hwide : constant.isWide = true
    · rw [if_pos hwide] at h
      by_cases hroom : slots.size + 1 < count
      · rw [if_pos hroom] at h
        obtain ⟨constants, rfl, hcount⟩ :=
          ihWide constant hroom (by simp only [Array.size_push]; omega) h
        refine ⟨constant :: constants, ?_, hcount⟩
        rw [List.flatMap_cons, Constant.slots_of_isWide hwide]
        simp
      · rw [if_neg hroom] at h
        exact absurd h Stateful.throw_ne_ok
    · rw [if_neg hwide] at h
      obtain ⟨constants, rfl, hcount⟩ := ihNarrow constant (by simp only [Array.size_push]; omega) h
      refine ⟨constant :: constants, ?_, hcount⟩
      rw [List.flatMap_cons, Constant.slots_of_not_isWide hwide]
      simp
  | case2 slots hfull =>
    rw [readSlots, if_neg hfull] at h
    obtain ⟨rfl, -⟩ := Stateful.pure_eq_ok_iff.mp h
    exact ⟨[], by simp, by omega⟩

theorem constants_of_read {count : UInt16} {pool : Pool} {c d : Cursor}
    (h : Pool.read count c = .ok pool d) :
    ∃ constants, pool = .ofConstants constants ∧ pool.size = count.toNat := by
  unfold Pool.read at h
  split at h
  · exact absurd h Stateful.throw_ne_ok
  · next hcount =>
    obtain ⟨slots, d', hslots, h⟩ := Stateful.bind_eq_ok_iff.mp h
    obtain ⟨rfl, -⟩ := Stateful.pure_eq_ok_iff.mp h
    have hpos : 1 ≤ count.toNat := by
      have hne : count.toNat ≠ 0 := fun hzero => hcount (UInt16.toNat_inj.mp hzero)
      omega
    obtain ⟨constants, rfl, hsize⟩ := constants_of_readSlots hpos hslots
    exact ⟨constants, by simp [Pool.ofConstants], hsize⟩

end Pool

namespace ClassFile

variable {α β σ : Type} {pool : Pool} {encode : β → List UInt8} {valid : β → Prop}

/-! ### Tables and attributes -/

/-- A count of two bytes and as many entries behind it. -/
theorem recovers_counted {γ : Type} {entries : Nat → Scan γ} {resolve : List β → Except Fault γ}
    (h : ∀ n, Recovers (entries n) (List.flatMap encode)
      (fun xs => xs.length = n ∧ ∀ x ∈ xs, valid x) resolve) :
    Recovers (do entries (← Scan.u16).toNat) (encodeTable encode)
      (fun xs => FitsCount xs.length ∧ ∀ x ∈ xs, valid x) resolve := by
  intro c e found hok
  obtain ⟨count, d, hcount, hok⟩ := Stateful.bind_eq_ok_iff.mp hok
  have hrest := Scan.rest_eq_of_u16 hcount
  obtain ⟨xs, hrest', ⟨hlength, hxs⟩, hfound⟩ := h count.toNat d e found hok
  refine ⟨xs, ?_, ⟨?_, hxs⟩, hfound⟩
  · rw [hrest, hrest', encodeTable, hlength, List.append_assoc]
  · rw [FitsCount, hlength]
    exact count.toNat_lt

theorem recovers_table {entry : Scan α} {resolve : β → Except Fault α}
    (h : Recovers entry encode valid resolve) :
    Recovers (table entry) (encodeTable encode)
      (fun xs => FitsCount xs.length ∧ ∀ x ∈ xs, valid x) (List.mapM resolve) :=
  recovers_counted fun n => Scan.recovers_times h n

theorem recovers_attributes {body : String → σ → Scan σ} {update : σ → β → Except Fault σ}
    (h : ∀ s, Recovers (readAttribute pool body s) encode valid (update s)) (first : σ) :
    Recovers (readAttributes pool body first) (encodeTable encode)
      (fun xs => FitsCount xs.length ∧ ∀ x ∈ xs, valid x) (fun xs => xs.foldlM update first) :=
  recovers_counted fun n => Scan.recovers_iterate h n first

/-- An attribute that was accepted is its name, its length and its body, of which its reader has looked
at the front. -/
theorem laidOut_of_readAttribute {body : String → σ → Scan σ}
    (h : ∀ found s, SelfDelimiting (body found s)) {s t : σ} {c d : Cursor}
    (hok : readAttribute pool body s c = .ok t d) :
    ∃ name found front back, pool.utf8 name = .ok found ∧ Reads (body found s) front t ∧
      FitsLength (front ++ back).length ∧
        c.rest = encodeAttribute name (front ++ back) ++ d.rest := by
  obtain ⟨name, found, front, back, tail, hname, hreads, hlength, hrest⟩ :=
    encodes_of_readAttribute_eq_ok h hok
  rw [reads_attribute hname hlength hreads c tail hrest, EStateM.Result.ok.injEq] at hok
  obtain ⟨-, rfl⟩ := hok
  rw [Scan.rest_advance_append hrest]
  exact ⟨name, found, front, back, hname, hreads, hlength, hrest⟩

theorem fitsLength_of_append {front back : List UInt8} (h : FitsLength (front ++ back).length) :
    FitsLength front.length := by
  have hshorter : front.length ≤ (front ++ back).length := by simp
  exact Nat.lt_of_le_of_lt hshorter h

/-- What takes no bytes has read none. -/
theorem eq_nil_of_reads_pure {s t : σ} {front : List UInt8} (h : Reads (pure s) front t) :
    front = [] ∧ s = t := by
  obtain ⟨hsame, hplace⟩ := Stateful.pure_eq_ok_iff.mp h.opened
  have hposition := congrArg Cursor.position hplace
  rw [Cursor.position_advance] at hposition
  exact ⟨List.length_eq_zero_iff.mp (by omega), hsame⟩

theorem recovers_skipAttribute (u : Unit) :
    Recovers (readAttribute pool (fun _ _ => return ()) u) RawAttribute.encode
      (RawAttribute.Fits pool []) (fun _ => .ok ()) := by
  intro c d t hok
  obtain ⟨name, found, front, back, hname, hreads, hlength, hrest⟩ :=
    laidOut_of_readAttribute (fun _ _ => Scan.selfDelimiting_pure ()) hok
  obtain ⟨rfl, -⟩ := eq_nil_of_reads_pure hreads
  exact ⟨⟨name, back⟩, hrest, ⟨⟨found, hname, List.not_mem_nil⟩, hlength⟩, rfl⟩

theorem recovers_skipAttributes (pool : Pool) :
    Recovers (skipAttributes pool) (encodeTable RawAttribute.encode)
      (fun xs => FitsCount xs.length ∧ ∀ x ∈ xs, x.Fits pool []) (fun _ => .ok ()) := by
  intro c d t hok
  obtain ⟨xs, hrest, hxs, -⟩ := recovers_attributes recovers_skipAttribute () c d t hok
  exact ⟨xs, hrest, hxs, rfl⟩

/-! ### Fields and methods -/

theorem recovers_field (pool : Pool) :
    Recovers (field pool) FieldSource.encode (FieldSource.Fits pool)
      (FieldSource.resolve pool) := by
  intro c e f hok
  obtain ⟨access, c₁, haccess, hok⟩ := Stateful.bind_eq_ok_iff.mp hok
  obtain ⟨name, c₂, hname, hok⟩ := Stateful.bind_eq_ok_iff.mp hok
  obtain ⟨descriptor, c₃, hdescriptor, hok⟩ := Stateful.bind_eq_ok_iff.mp hok
  obtain ⟨_, c₄, hskip, hok⟩ := Stateful.bind_eq_ok_iff.mp hok
  obtain ⟨rfl, rfl⟩ := Stateful.pure_eq_ok_iff.mp hok
  have haccess := Scan.rest_eq_of_u16 haccess
  obtain ⟨nameIndex, hrestName, hname⟩ := Scan.rest_eq_of_lookup hname
  obtain ⟨descriptorIndex, hrestDescriptor, hdescriptor⟩ := Scan.rest_eq_of_lookup hdescriptor
  obtain ⟨attributes, hrestAttributes, ⟨hcount, hfits⟩, -⟩ :=
    recovers_skipAttributes pool c₃ c₄ _ hskip
  refine ⟨⟨access, nameIndex, descriptorIndex, attributes⟩, ?_, ⟨hcount, hfits⟩, ?_⟩
  · rw [haccess, hrestName, hrestDescriptor, hrestAttributes]
    simp only [FieldSource.encode, encodeIndex, List.append_assoc]
  · rw [FieldSource.resolve, hname, hdescriptor]
    rfl

theorem recovers_handler (pool : Pool) :
    Recovers (handler pool) HandlerSource.encode (fun _ => True)
      (HandlerSource.resolve pool) := by
  intro c e h hok
  obtain ⟨startPc, c₁, hstart, hok⟩ := Stateful.bind_eq_ok_iff.mp hok
  obtain ⟨endPc, c₂, hend, hok⟩ := Stateful.bind_eq_ok_iff.mp hok
  obtain ⟨handlerPc, c₃, hhandler, hok⟩ := Stateful.bind_eq_ok_iff.mp hok
  obtain ⟨index, c₄, hindex, hok⟩ := Stateful.bind_eq_ok_iff.mp hok
  have hrest : c.rest = HandlerSource.encode ⟨startPc, endPc, handlerPc, index⟩ ++ c₄.rest := by
    rw [Scan.rest_eq_of_u16 hstart, Scan.rest_eq_of_u16 hend, Scan.rest_eq_of_u16 hhandler,
      Scan.rest_eq_of_u16 hindex]
    simp only [HandlerSource.encode, encodeIndex, List.append_assoc]
  -- An index of zero stands for no class, any other is looked up; neither takes bytes.
  by_cases hzero : index = 0
  · rw [if_pos hzero] at hok
    obtain ⟨rfl, rfl⟩ := Stateful.pure_eq_ok_iff.mp hok
    refine ⟨_, hrest, trivial, ?_⟩
    rw [HandlerSource.resolve, className?_eq_ok_iff.mpr (Or.inl ⟨hzero, rfl⟩)]
    rfl
  · rw [if_neg hzero] at hok
    obtain ⟨name, c₅, hlookup, hok⟩ := Stateful.bind_eq_ok_iff.mp hok
    obtain ⟨hname, rfl⟩ := Stateful.liftM_eq_ok_iff.mp hlookup
    obtain ⟨rfl, rfl⟩ := Stateful.pure_eq_ok_iff.mp hok
    refine ⟨_, hrest, trivial, ?_⟩
    rw [HandlerSource.resolve, className?_eq_ok_iff.mpr (Or.inr ⟨hzero, name, hname, rfl⟩)]
    rfl

/-- The code of a method has the length that is declared, which is in its limits. -/
theorem recovers_code (pool : Pool) :
    Recovers (code pool) CodeSource.encode
      (fun s => FitsLength s.encode.length → s.Fits pool) (CodeSource.resolve pool) := by
  intro c e found hok
  obtain ⟨maxStack, c₁, hstack, hok⟩ := Stateful.bind_eq_ok_iff.mp hok
  obtain ⟨maxLocals, c₂, hlocals, hok⟩ := Stateful.bind_eq_ok_iff.mp hok
  obtain ⟨length, c₃, hlength, hok⟩ := Stateful.bind_eq_ok_iff.mp hok
  by_cases hrange : length = 0 ∨ maxCodeLength < length
  · rw [if_pos hrange] at hok
    exact absurd hok Stateful.throw_ne_ok
  · rw [if_neg hrange] at hok
    obtain ⟨bytes, c₄, hbytes, hok⟩ := Stateful.bind_eq_ok_iff.mp hok
    obtain ⟨handlers, c₅, hhandlers, hok⟩ := Stateful.bind_eq_ok_iff.mp hok
    obtain ⟨_, c₆, hskip, hok⟩ := Stateful.bind_eq_ok_iff.mp hok
    obtain ⟨rfl, rfl⟩ := Stateful.pure_eq_ok_iff.mp hok
    obtain ⟨hcount, hrestBytes⟩ := Scan.rest_eq_of_take hbytes
    obtain ⟨handlerSources, hrestHandlers, ⟨hhandlerCount, -⟩, hresolve⟩ :=
      recovers_table (recovers_handler pool) c₄ c₅ handlers hhandlers
    obtain ⟨attributes, hrestAttributes, ⟨hattributeCount, hattributes⟩, -⟩ :=
      recovers_skipAttributes pool c₅ c₆ _ hskip
    refine ⟨⟨maxStack, maxLocals, bytes, handlerSources, attributes⟩, ?_, fun hfits => ?_, ?_⟩
    · rw [Scan.rest_eq_of_u16 hstack, Scan.rest_eq_of_u16 hlocals, Scan.rest_eq_of_u32 hlength,
        hrestBytes, hrestHandlers, hrestAttributes, ← hcount]
      simp only [CodeSource.encode, encodeIndex, List.append_assoc]
    · have hlower : length.toNat ≠ 0 := fun hzero => hrange (Or.inl (UInt32.toNat_inj.mp hzero))
      have hupper : length.toNat ≤ 65535 := by
        have hle := UInt32.not_lt.mp fun hlt => hrange (Or.inr hlt)
        exact UInt32.le_iff_toNat_le.mp hle
      exact ⟨by rw [hcount]; omega, by rw [FitsCount, hcount]; omega, hhandlerCount,
        hattributeCount, hattributes, hfits⟩
    · rw [CodeSource.resolve, hresolve]
      rfl

/-- An attribute of a method as its reader takes it: interpreted under two names, passed over under any
other. -/
theorem recovers_methodAttribute (pool : Pool) (name descriptor : String) (s : MethodBody) :
    Recovers (readAttribute pool (methodAttribute pool name descriptor) s)
      MethodAttribute.encodePadded
      (fun a => a.content.Fits pool ∧ FitsLength (a.content.body ++ a.slack).length)
      (fun a => s.update pool name descriptor a.content) := by
  intro c d t hok
  obtain ⟨index, found, front, back, hindex, hreads, hlength, hrest⟩ :=
    laidOut_of_readAttribute (selfDelimiting_methodAttribute pool name descriptor) hok
  unfold methodAttribute at hreads
  by_cases hcode : found = "Code"
  · rw [if_pos hcode] at hreads
    by_cases hsecond : s.code.isSome = true
    · rw [if_pos hsecond] at hreads
      exact absurd hreads.opened Stateful.throw_ne_ok
    · rw [if_neg hsecond] at hreads
      obtain ⟨source, rfl, hsource, hresolve⟩ :=
        (Scan.recovers_map (recovers_code pool) _).of_reads hreads
      obtain ⟨content, hcontent, rfl⟩ := Stateful.verdict_map_eq_ok_iff.mp hresolve
      have hshorter : FitsLength source.encode.length := fitsLength_of_append hlength
      refine ⟨⟨.code index source, back⟩, hrest, ⟨⟨hcode ▸ hindex, hsource hshorter⟩, hlength⟩, ?_⟩
      dsimp only
      rw [MethodBody.update, if_neg hsecond, hcontent]
      rfl
  · rw [if_neg hcode] at hreads
    by_cases hexceptions : found = "Exceptions"
    · rw [if_pos hexceptions] at hreads
      obtain ⟨classes, rfl, ⟨hcount, -⟩, hresolve⟩ := (Scan.recovers_map
        (recovers_table (Scan.recovers_lookup pool.className)) _).of_reads hreads
      obtain ⟨names, hnames, rfl⟩ := Stateful.verdict_map_eq_ok_iff.mp hresolve
      refine ⟨⟨.exceptions index classes, back⟩, hrest, ⟨⟨hexceptions ▸ hindex, hcount⟩, hlength⟩, ?_⟩
      dsimp only
      rw [MethodBody.update, hnames]
      rfl
    · rw [if_neg hexceptions] at hreads
      obtain ⟨rfl, rfl⟩ := eq_nil_of_reads_pure hreads
      refine ⟨⟨.other ⟨index, back⟩, []⟩, ?_, ⟨⟨⟨found, hindex, ?_⟩, hlength⟩, ?_⟩, rfl⟩
      · rw [hrest, MethodAttribute.encodePadded, List.append_nil]
        rfl
      · simp [MethodAttribute.interpreted, hcode, hexceptions]
      · rw [List.append_nil]
        exact hlength

/-- Attributes that add up have at most one body among them, and every name in them resolves. -/
theorem resolves_of_foldlM_update {name descriptor : String} {attributes : List MethodAttribute}
    {body last : MethodBody}
    (h : attributes.foldlM (MethodBody.update pool name descriptor) body = .ok last) :
    attributes.countP MethodAttribute.isCode + body.code.toList.length ≤ 1 ∧
      ∃ exceptions code, (attributes.flatMap MethodAttribute.classes).mapM pool.className =
          .ok exceptions ∧
        (attributes.findSome? MethodAttribute.code?).mapM (CodeSource.resolve pool) = .ok code ∧
          last = { exceptions := body.exceptions ++ exceptions, code := code.or body.code } := by
  induction attributes generalizing body with
  | nil =>
    cases h
    refine ⟨?_, [], none, rfl, rfl, by simp⟩
    cases last.code <;> simp
  | cons a attributes ih =>
    rw [List.foldlM_cons] at h
    obtain ⟨next, hnext, h⟩ := Stateful.verdict_bind_eq_ok_iff.mp h
    obtain ⟨hone, exceptions, code, hexceptions, hcode, rfl⟩ := ih h
    cases a with
    | code index source =>
      by_cases hsecond : body.code.isSome = true
      · rw [MethodBody.update, if_pos hsecond] at hnext
        cases hnext
      · rw [MethodBody.update, if_neg hsecond] at hnext
        obtain ⟨c, hc, hnext⟩ := Stateful.verdict_bind_eq_ok_iff.mp hnext
        cases hnext
        have hnone : body.code = none := by simpa using hsecond
        have hno : attributes.countP MethodAttribute.isCode = 0 := by
          simp only [Option.toList_some, List.length_singleton] at hone
          omega
        rw [findSome?_code?_eq_none hno] at hcode
        cases hcode
        refine ⟨?_, exceptions, some c, hexceptions, ?_, ?_⟩
        · rw [List.countP_cons_of_pos rfl, hno, hnone]
          simp
        · rw [List.findSome?_cons]
          dsimp only [MethodAttribute.code?]
          rw [Option.mapM_some, hc]
          rfl
        · simp
    | exceptions index classes =>
      obtain ⟨here, hhere, hnext⟩ := Stateful.verdict_bind_eq_ok_iff.mp hnext
      cases hnext
      refine ⟨?_, here ++ exceptions, code, ?_, hcode, by rw [List.append_assoc]⟩
      · rw [List.countP_cons_of_neg (by simp [MethodAttribute.isCode, MethodAttribute.code?])]
        exact hone
      · exact Stateful.mapM_append_eq_ok_iff.mpr ⟨here, exceptions, hhere, hexceptions, rfl⟩
    | other raw =>
      cases hnext
      refine ⟨?_, exceptions, code, hexceptions, hcode, rfl⟩
      rw [List.countP_cons_of_neg (by simp [MethodAttribute.isCode, MethodAttribute.code?])]
      exact hone

theorem recovers_method (pool : Pool) :
    Recovers (method pool) MethodLayout.encode (MethodLayout.Fits pool)
      (fun m => m.source.resolve pool) := by
  intro c e m hok
  obtain ⟨access, c₁, haccess, hok⟩ := Stateful.bind_eq_ok_iff.mp hok
  obtain ⟨name, c₂, hname, hok⟩ := Stateful.bind_eq_ok_iff.mp hok
  obtain ⟨descriptor, c₃, hdescriptor, hok⟩ := Stateful.bind_eq_ok_iff.mp hok
  obtain ⟨body, c₄, hbody, hok⟩ := Stateful.bind_eq_ok_iff.mp hok
  obtain ⟨rfl, rfl⟩ := Stateful.pure_eq_ok_iff.mp hok
  obtain ⟨nameIndex, hrestName, hname⟩ := Scan.rest_eq_of_lookup hname
  obtain ⟨descriptorIndex, hrestDescriptor, hdescriptor⟩ := Scan.rest_eq_of_lookup hdescriptor
  obtain ⟨attributes, hrestAttributes, ⟨hcount, hfits⟩, hfold⟩ :=
    recovers_attributes (recovers_methodAttribute pool name descriptor) {} c₃ c₄ body hbody
  have hfold : (attributes.map Padded.content).foldlM (MethodBody.update pool name descriptor) {} =
      .ok body := by
    rw [List.foldlM_map]
    exact hfold
  obtain ⟨hone, exceptions, code, hexceptions, hcode, rfl⟩ := resolves_of_foldlM_update hfold
  refine ⟨⟨access, nameIndex, descriptorIndex, attributes⟩, ?_, ⟨hcount, hfits, hone⟩, ?_⟩
  · rw [Scan.rest_eq_of_u16 haccess, hrestName, hrestDescriptor, hrestAttributes]
    simp only [MethodLayout.encode, encodeIndex, List.append_assoc]
  · dsimp only [MethodLayout.source]
    rw [MethodSource.resolve, hname, hdescriptor]
    dsimp only [bind, Except.bind, MethodSource.exceptions, MethodSource.code?]
    rw [hexceptions]
    dsimp only
    rw [hcode]
    simp only [List.nil_append, Option.or_none]
    rfl

/-! ### The class -/

/-- A table whose entries stand for themselves. -/
theorem recovers_plainTable {entry : Scan α} {encode : α → List UInt8} {valid : α → Prop}
    (h : Recovers entry encode valid fun x => .ok x) :
    Recovers (table entry) (encodeTable encode)
      (fun xs => FitsCount xs.length ∧ ∀ x ∈ xs, valid x) (fun xs => .ok xs) := by
  intro c d xs hok
  obtain ⟨ys, hrest, hvalid, hsame⟩ := recovers_table h c d xs hok
  rw [mapM_ok_self] at hsame
  exact ⟨ys, hrest, hvalid, hsame⟩

theorem recovers_bootstrapMethod :
    Recovers bootstrapMethod BootstrapMethod.encode (fun b => FitsCount b.arguments.length)
      (fun b => .ok b) := by
  intro c d b hok
  obtain ⟨handle, c₁, hhandle, hok⟩ := Stateful.bind_eq_ok_iff.mp hok
  obtain ⟨arguments, c₂, harguments, hok⟩ := Stateful.bind_eq_ok_iff.mp hok
  obtain ⟨rfl, rfl⟩ := Stateful.pure_eq_ok_iff.mp hok
  obtain ⟨found, hrest, ⟨hcount, -⟩, hsame⟩ :=
    recovers_plainTable Scan.recovers_u16 c₁ c₂ arguments harguments
  cases hsame
  refine ⟨⟨handle, arguments⟩, ?_, hcount, rfl⟩
  rw [Scan.rest_eq_of_u16 hhandle, hrest, BootstrapMethod.encode, encodeIndex, List.append_assoc]
  rfl

theorem recovers_classAttribute (pool : Pool) (s : List BootstrapMethod) :
    Recovers (readAttribute pool classAttribute s) ClassAttribute.encodePadded
      (fun a => a.content.Fits pool ∧ FitsLength (a.content.body ++ a.slack).length)
      (fun a => replaceMethods s a.content) := by
  intro c d t hok
  obtain ⟨index, found, front, back, hindex, hreads, hlength, hrest⟩ :=
    laidOut_of_readAttribute selfDelimiting_classAttribute hok
  unfold classAttribute at hreads
  by_cases hfound : found = "BootstrapMethods"
  · rw [if_pos hfound] at hreads
    obtain ⟨methods, rfl, ⟨hcount, harguments⟩, hsame⟩ :=
      (recovers_plainTable recovers_bootstrapMethod).of_reads hreads
    cases hsame
    have hshorter : FitsLength (encodeTable BootstrapMethod.encode t).length :=
      fitsLength_of_append hlength
    exact ⟨⟨.bootstrapMethods index t, back⟩, hrest,
      ⟨⟨hfound ▸ hindex, hcount, harguments, hshorter⟩, hlength⟩, rfl⟩
  · rw [if_neg hfound] at hreads
    obtain ⟨rfl, rfl⟩ := eq_nil_of_reads_pure hreads
    refine ⟨⟨.other ⟨index, back⟩, []⟩, ?_, ⟨⟨⟨found, hindex, ?_⟩, hlength⟩, ?_⟩, rfl⟩
    · rw [hrest, ClassAttribute.encodePadded, List.append_nil]
      rfl
    · simp [ClassAttribute.interpreted, hfound]
    · rw [List.append_nil]
      exact hlength

theorem recovers_superName (pool : Pool) (name : String) (access : ClassAccess) :
    Recovers (superName pool name access) encodeIndex
      (fun index => index = 0 → name = rootClass ∨ access.isModule = true) pool.className? := by
  intro c e parent hok
  obtain ⟨index, d, hindex, hok⟩ := Stateful.bind_eq_ok_iff.mp hok
  have hrest := Scan.rest_eq_of_u16 hindex
  by_cases hzero : index = 0
  · rw [if_pos hzero] at hok
    by_cases hallowed : name = rootClass ∨ access.isModule = true
    · rw [if_pos hallowed] at hok
      obtain ⟨rfl, rfl⟩ := Stateful.pure_eq_ok_iff.mp hok
      exact ⟨index, hrest, fun _ => hallowed, className?_eq_ok_iff.mpr (Or.inl ⟨hzero, rfl⟩)⟩
    · rw [if_neg hallowed] at hok
      exact absurd hok Stateful.throw_ne_ok
  · rw [if_neg hzero] at hok
    obtain ⟨found, d', hlookup, hok⟩ := Stateful.bind_eq_ok_iff.mp hok
    obtain ⟨hfound, rfl⟩ := Stateful.liftM_eq_ok_iff.mp hlookup
    obtain ⟨rfl, rfl⟩ := Stateful.pure_eq_ok_iff.mp hok
    exact ⟨index, hrest, fun h => absurd h hzero,
      className?_eq_ok_iff.mpr (Or.inr ⟨hzero, found, hfound, rfl⟩)⟩

/-- The versions that stand behind the magic number. -/
theorem rest_eq_of_header {c d : Cursor} {major : UInt16} (hok : header c = .ok major d) :
    ∃ minor, c.rest = digits 4 magic.toNat ++ (encodeIndex minor ++ (encodeIndex major ++ d.rest)) ∧
      minMajorVersion ≤ major ∧ major ≤ maxMajorVersion := by
  obtain ⟨found, c₁, hfound, hok⟩ := Stateful.bind_eq_ok_iff.mp hok
  by_cases hmagic : found ≠ magic
  · rw [if_pos hmagic] at hok
    exact absurd hok Stateful.throw_ne_ok
  · rw [if_neg hmagic] at hok
    obtain ⟨minor, c₂, hminor, hok⟩ := Stateful.bind_eq_ok_iff.mp hok
    obtain ⟨version, c₃, hversion, hok⟩ := Stateful.bind_eq_ok_iff.mp hok
    by_cases hrange : version < minMajorVersion ∨ maxMajorVersion < version
    · rw [if_pos hrange] at hok
      exact absurd hok Stateful.throw_ne_ok
    · rw [if_neg hrange] at hok
      obtain ⟨rfl, rfl⟩ := Stateful.pure_eq_ok_iff.mp hok
      refine ⟨minor, ?_, UInt16.not_lt.mp fun h => hrange (Or.inl h),
        UInt16.not_lt.mp fun h => hrange (Or.inr h)⟩
      rw [Scan.rest_eq_of_u32 hfound, Scan.rest_eq_of_u16 hminor, Scan.rest_eq_of_u16 hversion,
        Decidable.not_not.mp hmagic]
      rfl

theorem rest_eq_nil_of_atEnd {c d : Cursor} (hok : atEnd c = .ok () d) : c.rest = [] := by
  by_cases hmore : c.rest = []
  · exact hmore
  · rw [atEnd_of_rest_ne_nil hmore] at hok
    cases hok

/-- A pool takes the bytes that its reader would read anywhere else. -/
theorem rest_eq_of_pool {count : UInt16} {c d : Cursor} (hok : Pool.read count c = .ok pool d) :
    ∃ bytes, c.rest = bytes ++ d.rest ∧ Reads (Pool.read count) bytes pool := by
  obtain ⟨bytes, tail, hrest, hreads, -⟩ := Pool.selfDelimiting_read count c d pool hok
  rw [hreads c tail hrest, EStateM.Result.ok.injEq] at hok
  obtain ⟨-, rfl⟩ := hok
  exact ⟨bytes, by rw [Scan.rest_advance_append hrest, hrest], hreads⟩

theorem resolve_eq_ok_iff {s : ClassSource} {file : ClassFile} :
    s.resolve = .ok file ↔
      s.record = .ok file.record ∧ file.majorVersion = s.majorVersion ∧ file.pool = s.pool ∧
        s.fields.mapM (FieldSource.resolve s.pool) = .ok file.fields ∧
          s.methods.mapM (MethodSource.resolve s.pool) = .ok file.methods ∧
            file.bootstrapMethods = s.bootstrapMethods := by
  constructor
  · intro h
    obtain ⟨record, hrecord, h⟩ := Stateful.verdict_bind_eq_ok_iff.mp h
    obtain ⟨fields, hfields, h⟩ := Stateful.verdict_bind_eq_ok_iff.mp h
    obtain ⟨methods, hmethods, h⟩ := Stateful.verdict_bind_eq_ok_iff.mp h
    cases h
    exact ⟨hrecord, rfl, rfl, hfields, hmethods, rfl⟩
  · obtain ⟨record, majorVersion, pool, fields, methods, bootstrapMethods⟩ := file
    rintro ⟨hrecord, rfl, rfl, hfields, hmethods, rfl⟩
    rw [ClassSource.resolve, hrecord]
    dsimp only [bind, Except.bind]
    rw [hfields]
    dsimp only
    rw [hmethods]
    rfl

/-- A class file that is accepted up to the end of the buffer is a layout from there on. -/
theorem layout_of_scan {c d : Cursor} {file : ClassFile} (hok : scan c = .ok file d) :
    ∃ layout : ClassLayout, layout.Fits ∧ c.rest = layout.encode ∧
      layout.source.resolve = .ok file := by
  obtain ⟨major, c₁, hheader, hok⟩ := Stateful.bind_eq_ok_iff.mp hok
  obtain ⟨count, c₂, hcount, hok⟩ := Stateful.bind_eq_ok_iff.mp hok
  obtain ⟨pool, c₃, hpool, hok⟩ := Stateful.bind_eq_ok_iff.mp hok
  obtain ⟨access, c₄, haccess, hok⟩ := Stateful.bind_eq_ok_iff.mp hok
  obtain ⟨name, c₅, hname, hok⟩ := Stateful.bind_eq_ok_iff.mp hok
  obtain ⟨parent, c₆, hparent, hok⟩ := Stateful.bind_eq_ok_iff.mp hok
  obtain ⟨interfaceNames, c₇, hinterfaces, hok⟩ := Stateful.bind_eq_ok_iff.mp hok
  obtain ⟨fieldsFound, c₈, hfields, hok⟩ := Stateful.bind_eq_ok_iff.mp hok
  obtain ⟨methodsFound, c₉, hmethods, hok⟩ := Stateful.bind_eq_ok_iff.mp hok
  obtain ⟨bootstrapMethods, c₁₀, hattributes, hok⟩ := Stateful.bind_eq_ok_iff.mp hok
  obtain ⟨_, c₁₁, hend, hok⟩ := Stateful.bind_eq_ok_iff.mp hok
  obtain ⟨rfl, rfl⟩ := Stateful.pure_eq_ok_iff.mp hok
  obtain ⟨minor, hrestHeader, hmin, hmax⟩ := rest_eq_of_header hheader
  obtain ⟨constants, rfl, hsize⟩ := Pool.constants_of_read hpool
  obtain ⟨poolBytes, hrestPool, hreads⟩ := rest_eq_of_pool hpool
  obtain ⟨thisClass, hrestName, hname⟩ := Scan.rest_eq_of_lookup hname
  obtain ⟨superClass, hrestParent, hallowed, hparent⟩ := recovers_superName _ _ _ _ _ _ hparent
  obtain ⟨interfaces, hrestInterfaces, ⟨hinterfaceCount, -⟩, hinterfaces⟩ :=
    recovers_table (Scan.recovers_lookup _) _ _ _ hinterfaces
  obtain ⟨fields, hrestFields, ⟨hfieldCount, hfieldsFit⟩, hfields⟩ :=
    recovers_table (recovers_field _) _ _ _ hfields
  obtain ⟨methods, hrestMethods, ⟨hmethodCount, hmethodsFit⟩, hmethods⟩ :=
    recovers_table (recovers_method _) _ _ _ hmethods
  obtain ⟨attributes, hrestAttributes, ⟨hattributeCount, hattributesFit⟩, hattributes⟩ :=
    recovers_attributes (recovers_classAttribute _) _ _ _ _ hattributes
  have hcountIs : UInt16.ofNat (Pool.ofConstants constants).size = count := by
    rw [hsize, UInt16.ofNat_toNat]
  refine ⟨⟨minor, major, constants, poolBytes, access, thisClass, superClass, interfaces, fields,
    methods, attributes⟩, ⟨hmin, hmax, ?_, ?_, ?_, hinterfaceCount, hfieldCount, hfieldsFit,
      hmethodCount, hmethodsFit, hattributeCount, hattributesFit⟩, ?_, ?_⟩
  · change FitsCount (Pool.ofConstants constants).size
    rw [FitsCount, hsize]
    exact count.toNat_lt
  · change Reads (Pool.read (UInt16.ofNat (Pool.ofConstants constants).size)) poolBytes
      (.ofConstants constants)
    rw [hcountIs]
    exact hreads
  · intro hzero
    refine (hallowed hzero).imp_left ?_
    rintro rfl
    exact hname
  · have hsize : digits 2 (Pool.ofConstants constants).size = digits 2 count.toNat := by rw [hsize]
    rw [hrestHeader, Scan.rest_eq_of_u16 hcount, hrestPool, Scan.rest_eq_of_u16 haccess, hrestName,
      hrestParent, hrestInterfaces, hrestFields, hrestMethods, hrestAttributes,
      rest_eq_nil_of_atEnd hend, ← hsize, List.append_nil]
    simp only [ClassLayout.encode, ClassLayout.header, ClassLayout.declaration, encodeIndex,
      List.append_assoc]
    rfl
  · have hfold : (attributes.map Padded.content).foldlM replaceMethods [] =
        .ok bootstrapMethods := by
      rw [List.foldlM_map]
      exact hattributes
    rw [foldlM_replaceMethods] at hfold
    cases hfold
    have hmethods : (methods.map MethodLayout.source).mapM
        (MethodSource.resolve (Pool.ofConstants constants)) = .ok methodsFound := by
      rw [List.mapM_map]
      exact hmethods
    refine resolve_eq_ok_iff.mpr ⟨?_, rfl, rfl, hfields, hmethods, rfl⟩
    rw [ClassSource.record]
    dsimp only [ClassLayout.source, ClassSource.pool]
    rw [hname, hparent, hinterfaces]
    rfl

/-! ### Whole buffers -/

theorem forall₂_of_mapM {resolve : β → Except Fault α} {xs : List β} {ys : List α}
    (h : xs.mapM resolve = .ok ys) : List.Forall₂ (fun x y => resolve x = .ok y) xs ys := by
  induction xs generalizing ys with
  | nil =>
    cases h
    exact .nil
  | cons x xs ih =>
    obtain ⟨y, rest, hy, hrest, rfl⟩ := Stateful.mapM_cons_eq_ok_iff.mp h
    exact .cons hy (ih hrest)

theorem holdsCode_of_layout {layout : ClassLayout} {file : ClassFile} (hfits : layout.Fits)
    (hresolve : layout.source.resolve = .ok file) :
    List.Forall₂ (fun m method => ∀ code, method.code = some code →
        m.HoldsCode file.pool layout.encode code ∧
          1 ≤ code.bytes.length ∧ code.bytes.length ≤ 65535) layout.methods file.methods := by
  obtain ⟨-, -, hpool, -, hmethods, -⟩ := resolve_eq_ok_iff.mp hresolve
  have hpairs := List.forall₂_map_left_iff.mp (forall₂_of_mapM hmethods)
  have hmembers := (List.forall₂_and_left _ _).mpr ⟨fun m hm => hm, hpairs⟩
  refine hmembers.imp fun m method hm code hcode => ?_
  rw [hpool]
  exact MethodLayout.holdsCode_of_resolve (hfits.methodsFit m hm.1)
    (ClassLayout.infix_encode hm.1) hm.2 hcode

/-- A super class is missing only where it may be. -/
theorem superName_of_layout {layout : ClassLayout} {file : ClassFile} (hfits : layout.Fits)
    (hresolve : layout.source.resolve = .ok file) (hnone : file.record.superName = none) :
    file.record.name = rootClass ∨ file.record.access.isModule = true := by
  obtain ⟨hrecord, -⟩ := resolve_eq_ok_iff.mp hresolve
  obtain ⟨record, majorVersion, pool, fields, methods, bootstrapMethods⟩ := file
  obtain ⟨name, hname, hrecord⟩ := Stateful.verdict_bind_eq_ok_iff.mp hrecord
  obtain ⟨parent, hparent, hrecord⟩ := Stateful.verdict_bind_eq_ok_iff.mp hrecord
  obtain ⟨_, -, hrecord⟩ := Stateful.verdict_bind_eq_ok_iff.mp hrecord
  cases hrecord
  cases hnone
  rcases className?_eq_ok_iff.mp hparent with ⟨hzero, -⟩ | ⟨-, _, -, hsome⟩
  · refine (hfits.superClass hzero).imp_left fun hroot => ?_
    exact Except.ok.inj (hname.symm.trans hroot)
  · cases hsome

theorem scan_of_parse {data : ByteArray} {file : ClassFile} (h : parse data = .ok file) :
    ∃ d, scan { data } = .ok file d := by
  cases hscan : scan { data } with
  | ok found d =>
    rw [parse, Scan.run, EStateM.run, hscan, Except.ok.injEq] at h
    exact ⟨d, by rw [h]⟩
  | error e d =>
    rw [parse_eq_error hscan] at h
    cases h

/-- An accepted buffer is the encoding of a layout: header, pool, interfaces, fields, methods and
attributes one after the other, with each attribute the interval of its declared length inside the body
of the one around it. The layout is within the limits of the format and resolves to what was read; the
code of a method is the declared number of bytes, between 1 and 65535, in the body of the only `Code`
attribute of that method; the major version is supported, and only the root class and modules go without
a super class. -/
theorem parse_laid_out {data : ByteArray} {file : ClassFile} (accepted : parse data = .ok file) :
    ∃ layout : ClassLayout, layout.Fits ∧ data.data.toList = layout.encode ∧
      layout.source.resolve = .ok file ∧
      List.Forall₂ (fun m method => ∀ code, method.code = some code →
        m.HoldsCode file.pool data.data.toList code ∧
          1 ≤ code.bytes.length ∧ code.bytes.length ≤ 65535) layout.methods file.methods ∧
      (45 ≤ file.majorVersion ∧ file.majorVersion ≤ 70) ∧
      (file.record.superName = none →
        file.record.name = rootClass ∨ file.record.access.isModule = true) := by
  obtain ⟨d, hscan⟩ := scan_of_parse accepted
  obtain ⟨layout, hfits, hrest, hresolve⟩ := layout_of_scan hscan
  rw [rest_start] at hrest
  refine ⟨layout, hfits, hrest, hresolve, ?_, ?_, superName_of_layout hfits hresolve⟩
  · rw [hrest]
    exact holdsCode_of_layout hfits hresolve
  · rw [(resolve_eq_ok_iff.mp hresolve).2.1]
    exact ⟨hfits.minMajor, hfits.maxMajor⟩

/-- `sample` has two methods, of which the first has code. -/
theorem parse_laid_out_sample : parse sample.encode.toByteArray = .ok sampleContent ∧
    ∃ layout : ClassLayout, layout.Fits ∧
      sample.encode.toByteArray.data.toList = layout.encode ∧
      layout.source.resolve = .ok sampleContent ∧
      List.Forall₂ (fun m method => ∀ code, method.code = some code →
        m.HoldsCode sampleContent.pool sample.encode.toByteArray.data.toList code ∧
          1 ≤ code.bytes.length ∧ code.bytes.length ≤ 65535) layout.methods sampleContent.methods ∧
      (45 ≤ sampleContent.majorVersion ∧ sampleContent.majorVersion ≤ 70) ∧
      (sampleContent.record.superName = none →
        sampleContent.record.name = rootClass ∨ sampleContent.record.access.isModule = true) :=
  have haccepted := Scan.run_eq_ok (readsToEnd_scan sample_fits sample_resolve)
  ⟨haccepted, parse_laid_out haccepted⟩

end ClassFile
end ClassXref
