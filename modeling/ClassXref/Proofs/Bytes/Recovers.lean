import ClassXref.Proofs.Bytes.SelfDelimiting

/-! Scans that accept only what was written in one way. `Reads` says what a scan does on an encoding;
`Recovers` goes back: whatever the scan accepts was the encoding of a source that stands for the result.
So the laws of fields compose to laws of records in this direction too. Which of several sources with one
encoding it was is left open. -/
namespace ClassXref.Scan

open BigEndian (digits)

/-- What `scan` accepts is the encoding of a source that is `valid` and resolves to the result. -/
def Recovers {α β : Type} (scan : Scan α) (encode : β → List UInt8) (valid : β → Prop)
    (resolve : β → Except Fault α) : Prop :=
  ∀ (c d : Cursor) (a : α), scan c = .ok a d →
    ∃ x, c.rest = encode x ++ d.rest ∧ valid x ∧ resolve x = .ok a

variable {α β σ : Type} {scan : Scan α} {encode : β → List UInt8} {valid : β → Prop}
  {resolve : β → Except Fault α} {bytes : List UInt8} {a : α}

/-- A run of bytes that is read as a result is the encoding of a source of it. -/
theorem Recovers.of_reads (h : Recovers scan encode valid resolve) (hreads : Reads scan bytes a) :
    ∃ x, bytes = encode x ∧ valid x ∧ resolve x = .ok a := by
  have hrest : Cursor.rest { data := bytes.toByteArray } = bytes ++ [] := by
    rw [rest_opened, List.append_nil]
  obtain ⟨x, hx, hvalid, hresolve⟩ := h _ _ a hreads.opened
  rw [rest_advance_append hrest, hrest, List.append_nil, List.append_nil] at hx
  exact ⟨x, hx, hvalid, hresolve⟩

/-! ### Fields -/

theorem rest_eq_of_u16 {c d : Cursor} {n : UInt16} (h : u16 c = .ok n d) :
    c.rest = digits 2 n.toNat ++ d.rest := by
  obtain ⟨rfl, tail, hrest⟩ := rest_of_u16_eq_ok h
  have htail := rest_advance_append hrest
  rw [BigEndian.length_digits] at htail
  rw [htail, hrest]

theorem rest_eq_of_u32 {c d : Cursor} {n : UInt32} (h : u32 c = .ok n d) :
    c.rest = digits 4 n.toNat ++ d.rest := by
  obtain ⟨rfl, tail, hrest⟩ := rest_of_u32_eq_ok h
  have htail := rest_advance_append hrest
  rw [BigEndian.length_digits] at htail
  rw [htail, hrest]

theorem rest_eq_of_take {n : Nat} {c d : Cursor} (h : take n c = .ok bytes d) :
    bytes.length = n ∧ c.rest = bytes ++ d.rest := by
  obtain ⟨rfl, rfl, tail, hrest⟩ := rest_of_take_eq_ok h
  exact ⟨rfl, by rw [rest_advance_append hrest, hrest]⟩

/-- An index whose target is looked up at once. -/
theorem rest_eq_of_lookup {lookup : UInt16 → Except Fault α} {c e : Cursor}
    (h : (do lookup (← u16) : Scan α) c = .ok a e) :
    ∃ n, c.rest = digits 2 n.toNat ++ e.rest ∧ lookup n = .ok a := by
  obtain ⟨n, d, hn, hlookup⟩ := Stateful.bind_eq_ok_iff.mp h
  obtain ⟨hfound, rfl⟩ := Stateful.liftM_eq_ok_iff.mp hlookup
  exact ⟨n, rest_eq_of_u16 hn, hfound⟩

theorem recovers_u16 :
    Recovers u16 (fun n => digits 2 n.toNat) (fun _ => True) (fun n => .ok n) := by
  intro c d n h
  exact ⟨n, rest_eq_of_u16 h, trivial, rfl⟩

theorem recovers_lookup (lookup : UInt16 → Except Fault α) :
    Recovers (do lookup (← u16) : Scan α) (fun n => digits 2 n.toNat) (fun _ => True) lookup := by
  intro c e a h
  obtain ⟨n, hrest, hfound⟩ := rest_eq_of_lookup h
  exact ⟨n, hrest, trivial, hfound⟩

theorem recovers_map (h : Recovers scan encode valid resolve) (f : α → σ) :
    Recovers (do return f (← scan)) encode valid (fun x => f <$> resolve x) := by
  intro c e b hok
  obtain ⟨a, d, hscan, hok⟩ := Stateful.bind_eq_ok_iff.mp hok
  obtain ⟨rfl, rfl⟩ := Stateful.pure_eq_ok_iff.mp hok
  obtain ⟨x, hrest, hvalid, hresolve⟩ := h c d a hscan
  exact ⟨x, hrest, hvalid, Stateful.verdict_map_eq_ok_iff.mpr ⟨a, hresolve, rfl⟩⟩

/-! ### Repetition -/

theorem recovers_times (h : Recovers scan encode valid resolve) (n : Nat) :
    Recovers (times n scan) (List.flatMap encode) (fun xs => xs.length = n ∧ ∀ x ∈ xs, valid x)
      (List.mapM resolve) := by
  -- The results that were found before stay in front of what the rest of the entries add.
  suffices hgo : ∀ found (c e : Cursor) ys, times.go scan n found c = .ok ys e →
      ∃ (xs : List β) (zs : List α), c.rest = xs.flatMap encode ++ e.rest ∧
        (xs.length = n ∧ ∀ x ∈ xs, valid x) ∧ xs.mapM resolve = .ok zs ∧
          ys = found.reverse ++ zs by
    intro c e ys hok
    obtain ⟨xs, zs, hrest, hvalid, hresolve, rfl⟩ := hgo [] c e ys hok
    exact ⟨xs, hrest, hvalid, hresolve⟩
  induction n with
  | zero =>
    intro found c e ys hok
    obtain ⟨rfl, rfl⟩ := Stateful.pure_eq_ok_iff.mp hok
    exact ⟨[], [], rfl, ⟨rfl, by simp⟩, rfl, by simp⟩
  | succ n ih =>
    intro found c e ys hok
    obtain ⟨a, d, hscan, hok⟩ := Stateful.bind_eq_ok_iff.mp hok
    obtain ⟨x, hrest, hx, ha⟩ := h c d a hscan
    obtain ⟨xs, zs, hrest', ⟨hlength, hxs⟩, hzs, rfl⟩ := ih (a :: found) d e ys hok
    refine ⟨x :: xs, a :: zs, ?_, ⟨by rw [List.length_cons, hlength], ?_⟩, ?_, by simp⟩
    · rw [hrest, hrest', List.flatMap_cons, List.append_assoc]
    · exact List.forall_mem_cons.mpr ⟨hx, hxs⟩
    · exact Stateful.mapM_cons_eq_ok_iff.mpr ⟨a, zs, ha, hzs, rfl⟩

theorem recovers_iterate {step : σ → Scan σ} {update : σ → β → Except Fault σ}
    (h : ∀ s, Recovers (step s) encode valid (update s)) (n : Nat) (first : σ) :
    Recovers (iterate n step first) (List.flatMap encode)
      (fun xs => xs.length = n ∧ ∀ x ∈ xs, valid x) (fun xs => xs.foldlM update first) := by
  induction n generalizing first with
  | zero =>
    intro c e last hok
    obtain ⟨rfl, rfl⟩ := Stateful.pure_eq_ok_iff.mp hok
    exact ⟨[], rfl, ⟨rfl, by simp⟩, rfl⟩
  | succ n ih =>
    intro c e last hok
    obtain ⟨next, d, hstep, hok⟩ := Stateful.bind_eq_ok_iff.mp hok
    obtain ⟨x, hrest, hx, hnext⟩ := h first c d next hstep
    obtain ⟨xs, hrest', ⟨hlength, hxs⟩, hlast⟩ := ih next d e last hok
    refine ⟨x :: xs, ?_, ⟨by rw [List.length_cons, hlength], ?_⟩, ?_⟩
    · rw [hrest, hrest', List.flatMap_cons, List.append_assoc]
    · exact List.forall_mem_cons.mpr ⟨hx, hxs⟩
    · dsimp only
      rw [List.foldlM_cons]
      exact Stateful.verdict_bind_eq_ok_iff.mpr ⟨next, hnext, hlast⟩

end ClassXref.Scan
