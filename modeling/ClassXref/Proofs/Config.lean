import Mathlib.Data.List.Nodup
import ClassXref.Config
import ClassXref.Proofs.Json.Containers

/-! Which texts hold a configuration, and which one. An object of known members with different keys does, and it
says what its members say. So does a list with the values of the first keys in their order. Neither has to be the
whole text: what stands behind it is not looked at. -/
namespace ClassXref

open Json (Exact From NextAt Reader Source Spelling behindBlanks)

namespace Config

/-! ### Members -/

/-- A key with its value; no value is `null`. -/
inductive Member where
  | namespaces (value : Option (List String))
  | threads (value : Option Nat)
  | otelEndpoint (value : Option String)
  deriving Repr, DecidableEq

def Member.key : Member → Key
  | namespaces _ => .namespaces
  | threads _ => .threads
  | otelEndpoint _ => .otelEndpoint

/-- What a configuration says on a key. -/
def get (config : Config) : Key → Member
  | .namespaces => .namespaces config.namespaces
  | .threads => .threads config.threads
  | .otelEndpoint => .otelEndpoint config.otelEndpoint

def set (config : Config) : Member → Config
  | .namespaces value => { config with namespaces := value }
  | .threads value => { config with threads := value }
  | .otelEndpoint value => { config with otelEndpoint := value }

/-- The configuration says what the members say, and nothing on other keys. -/
def Says (config : Config) (members : List Member) : Prop :=
  ∀ key, config.get key ∈ members ∨ key ∉ members.map Member.key ∧ config.get key = get {} key

theorem key_get (config : Config) (key : Key) : (config.get key).key = key := by
  cases key <;> rfl

theorem get_set (config : Config) (m : Member) (key : Key) :
    (config.set m).get key = if m.key = key then m else config.get key := by
  cases m <;> cases key <;> rfl

theorem eq_of_get_eq {a b : Config} (h : ∀ key, a.get key = b.get key) : a = b := by
  obtain ⟨namespaces, threads, otelEndpoint⟩ := a
  obtain ⟨namespaces', threads', otelEndpoint'⟩ := b
  obtain rfl := Member.namespaces.inj (h .namespaces)
  obtain rfl := Member.threads.inj (h .threads)
  obtain rfl := Member.otelEndpoint.inj (h .otelEndpoint)
  rfl

theorem get_foldl (members : List Member) (config : Config) (key : Key) :
    (members.foldl set config).get key ∈ members ∨
      key ∉ members.map Member.key ∧ (members.foldl set config).get key = config.get key := by
  induction members generalizing config with
  | nil => exact Or.inr ⟨List.not_mem_nil, rfl⟩
  | cons m members ih =>
    rw [List.foldl_cons]
    rcases ih (config.set m) with hmem | ⟨hnone, hsame⟩
    · exact Or.inl (List.mem_cons_of_mem m hmem)
    · rw [hsame, get_set]
      by_cases hkey : m.key = key
      · rw [if_pos hkey]
        exact Or.inl List.mem_cons_self
      · rw [if_neg hkey]
        refine Or.inr ⟨?_, rfl⟩
        rw [List.map_cons, List.mem_cons, not_or]
        exact ⟨Ne.symm hkey, hnone⟩

/-- Members with different keys leave no choice. -/
theorem says_iff {members : List Member} (h : (members.map Member.key).Nodup) (config : Config) :
    config.Says members ↔ config = members.foldl set {} := by
  constructor
  · intro hsays
    apply eq_of_get_eq
    intro key
    rcases hsays key with hmem | ⟨hnone, hget⟩
    · rcases get_foldl members {} key with hmem' | ⟨hnone', -⟩
      · exact List.inj_on_of_nodup_map h hmem hmem' (by rw [key_get, key_get])
      · exact absurd (List.mem_map.mpr ⟨_, hmem, key_get config key⟩) hnone'
    · rcases get_foldl members {} key with hmem' | ⟨-, hget'⟩
      · exact absurd (List.mem_map.mpr ⟨_, hmem', key_get _ key⟩) hnone
      · rw [hget, hget']
  · rintro rfl
    exact get_foldl members {}

/-! ### Spellings -/

/-- The value of a member. -/
def SpelledValue : Spelling Member := fun text m rest =>
  match m with
  | .namespaces value =>
    Json.Spelled.OrNull (Json.Spelled.Between '[' ']' Json.Spelled.Text) text value rest
  | .threads value => Json.Spelled.OrNull Json.Spelled.Natural text value rest
  | .otelEndpoint value => Json.Spelled.OrNull Json.Spelled.Text text value rest

/-- A key, a colon and a value. -/
inductive SpelledMember : Spelling Member
  | pair {text mid value rest : List Char} {m : Member} : Json.Spelled.Text text m.key.text mid →
      behindBlanks mid = ':' :: value → SpelledValue (behindBlanks value) m rest → SpelledMember text m rest

/-- An object at the front of a text, behind blanks, with different keys. -/
def SpelledObject : Spelling (List Member) := fun text members rest =>
  Json.Spelled.Between '\x7b' '\x7d' SpelledMember (behindBlanks text) members rest ∧
    (members.map Member.key).Nodup

/-- A list at the front of a text, behind blanks, with values for the first keys. -/
def SpelledList : Spelling (List Member) := fun text members rest =>
  Json.Spelled.Between '[' ']' SpelledValue (behindBlanks text) members rest ∧
    members.map Member.key <+: keys

theorem nodup_of_spelled {text rest : List Char} {members : List Member}
    (h : SpelledObject text members rest ∨ SpelledList text members rest) :
    (members.map Member.key).Nodup := by
  rcases h with ⟨-, hnodup⟩ | ⟨-, hfront⟩
  · exact hnodup
  · have hkeys : keys.Nodup := by decide
    exact hkeys.sublist hfront.sublist

/-! ### Values -/

section

variable {s t : Source} {text rest : List Char} {m : Member}

theorem exact_namespaces : Exact (Reader.optional (Reader.list Reader.text)) fun text =>
    Json.Spelled.OrNull (Json.Spelled.Between '[' ']' Json.Spelled.Text) (behindBlanks text) := by
  refine Reader.exact_optional (Reader.exact_list Reader.exact_text Reader.itemOf_text) fun text a rest h => ?_
  cases h

theorem exact_threads : Exact (Reader.optional Reader.natural) fun text =>
    Json.Spelled.OrNull Json.Spelled.Natural (behindBlanks text) := by
  refine Reader.exact_optional Reader.exact_natural fun text a rest h => ?_
  exact absurd (Reader.natural_cons_iff.mp h).1 (by decide)

theorem exact_otelEndpoint : Exact (Reader.optional Reader.text) fun text =>
    Json.Spelled.OrNull Json.Spelled.Text (behindBlanks text) := by
  refine Reader.exact_optional Reader.exact_text fun text a rest h => ?_
  cases h

/-- The reader of a value takes the value of a member with the given key, and sets it. -/
theorem exact_readValue (config : Config) (key : Key) : Exact (readValue config key) fun text result rest =>
    ∃ m, m.key = key ∧ SpelledValue (behindBlanks text) m rest ∧ result = config.set m := by
  cases key with
  | namespaces =>
    refine (exact_namespaces.bind fun _ => Exact.pure _).of_iff fun text result rest => ⟨?_, ?_⟩
    · rintro ⟨value, _, hvalue, rfl, rfl⟩
      exact ⟨.namespaces value, rfl, hvalue, rfl⟩
    · rintro ⟨m, hkey, hvalue, rfl⟩
      cases m <;> cases hkey
      exact ⟨_, _, hvalue, rfl, rfl⟩
  | threads =>
    refine (exact_threads.bind fun _ => Exact.pure _).of_iff fun text result rest => ⟨?_, ?_⟩
    · rintro ⟨value, _, hvalue, rfl, rfl⟩
      exact ⟨.threads value, rfl, hvalue, rfl⟩
    · rintro ⟨m, hkey, hvalue, rfl⟩
      cases m <;> cases hkey
      exact ⟨_, _, hvalue, rfl, rfl⟩
  | otelEndpoint =>
    refine (exact_otelEndpoint.bind fun _ => Exact.pure _).of_iff fun text result rest => ⟨?_, ?_⟩
    · rintro ⟨value, _, hvalue, rfl, rfl⟩
      exact ⟨.otelEndpoint value, rfl, hvalue, rfl⟩
    · rintro ⟨m, hkey, hvalue, rfl⟩
      cases m <;> cases hkey
      exact ⟨_, _, hvalue, rfl, rfl⟩

/-! ### Objects -/

theorem ofText?_eq_some_iff {name : String} {key : Key} : Key.ofText? name = some key ↔ key.text = name := by
  constructor
  · intro h
    rw [Key.ofText?] at h
    have hfound := List.find?_some h
    exact beq_iff_eq.mp hfound
  · rintro rfl
    cases key <;> rfl

theorem mem_keys (key : Key) : key ∈ keys := by
  cases key <;> decide

theorem refuseKey_ne_ok {problem : Json.Problem} {a : Config} : Reader.refuseKey problem s ≠ .ok a t := by
  intro h
  obtain ⟨_, mid, -, h⟩ := Stateful.bind_eq_ok_iff.mp h
  rw [Reader.peek?_bind] at h
  dsimp only at h
  split at h
  · obtain ⟨_, last, -, h⟩ := Stateful.bind_eq_ok_iff.mp h
    exact Reader.fail_ne_ok h
  · exact Reader.fail_ne_ok h

/-- The members that are left are taken if their keys are different and not yet seen. -/
theorem readMembers_sound {config result : Config} {first : Bool} {unseen : List Key} (hunseen : unseen.Nodup)
    (hs : s.Holds text) (h : readMembers config first unseen s = .ok result t) :
    ∃ members rest, t.Holds ('\x7d' :: rest) ∧ From first '\x7d' SpelledMember text members rest ∧
      (members.map Member.key).Nodup ∧ (∀ m ∈ members, m.key ∈ unseen) ∧
        result = members.foldl set config := by
  induction hlength : unseen.length using Nat.strongRecOn generalizing config first unseen s text with
  | ind n ih =>
    rw [readMembers] at h
    obtain ⟨more, mid, hmore, h⟩ := Stateful.bind_eq_ok_iff.mp h
    obtain ⟨start, hmid, hspelled⟩ := (Reader.exact_hasMember first).sound hs hmore
    rcases hspelled with ⟨rfl, rest, hclose, rfl⟩ | ⟨rfl, hnext, hquote⟩
    · cases h
      exact ⟨[], rest, hmid, Or.inl ⟨rfl, hclose⟩, List.nodup_nil, fun _ h => absurd h List.not_mem_nil, rfl⟩
    · obtain ⟨body, rfl⟩ := List.head?_eq_some_iff.mp hquote
      obtain ⟨behind, hpass, hbehind⟩ := Reader.exists_pass (by decide) hmid
      rw [if_pos rfl, Stateful.bind_ok hpass] at h
      obtain ⟨name, last, hname, h⟩ := Stateful.bind_eq_ok_iff.mp h
      obtain ⟨after, hlast, chars, hchars, rfl⟩ := Reader.exact_stringBody.sound hbehind hname
      cases hkey : Key.ofText? (String.ofList chars) with
      | none =>
        rw [hkey] at h
        exact absurd (Reader.within_eq_ok_iff.mp h) refuseKey_ne_ok
      | some key =>
        rw [hkey] at h
        dsimp only at h
        split at h
        · next hmem =>
          obtain ⟨_, separated, hcolon, h⟩ := Stateful.bind_eq_ok_iff.mp h
          obtain ⟨value, hseparated, hmark⟩ := Reader.exact_colon.sound hlast hcolon
          obtain ⟨set', next, hvalue, h⟩ := Stateful.bind_eq_ok_iff.mp h
          obtain ⟨left, hnextHolds, m, rfl, hspelled, rfl⟩ :=
            (exact_readValue config key).sound hseparated (Reader.within_eq_ok_iff.mp hvalue)
          -- each member takes its key from the keys not yet seen, so the keys that are left bound the induction
          have hshorter : (unseen.erase m.key).length < n := by
            rw [List.length_erase_of_mem hmem, hlength]
            have hpos := List.length_pos_of_mem hmem
            omega
          obtain ⟨members, rest, ht, hmembers, hnodup, hkeys, rfl⟩ :=
            ih _ hshorter (hunseen.erase m.key) hnextHolds h rfl
          have hmember : SpelledMember ('"' :: body) m left :=
            .pair (ofText?_eq_some_iff.mp hkey ▸ .quoted hchars) hmark hspelled
          refine ⟨m :: members, rest, ht,
            Or.inr ⟨m, members, _, left, rfl, hnext, hmember, Json.more_iff.mpr hmembers⟩, ?_, ?_, rfl⟩
          · rw [List.map_cons, List.nodup_cons]
            refine ⟨fun hseen => ?_, hnodup⟩
            obtain ⟨other, hother, hsame⟩ := List.mem_map.mp hseen
            exact (hunseen.mem_erase_iff.mp (hsame ▸ hkeys other hother)).1 rfl
          · rintro other (_ | ⟨_, hother⟩)
            · exact hmem
            · exact List.mem_of_mem_erase (hkeys other hother)
        · exact absurd h refuseKey_ne_ok

theorem readMembers_complete {config : Config} {first : Bool} {unseen : List Key} {members : List Member}
    (hs : s.Holds text) (hspelled : From first '\x7d' SpelledMember text members rest)
    (hnodup : (members.map Member.key).Nodup) (hkeys : ∀ m ∈ members, m.key ∈ unseen) :
    ∃ t, readMembers config first unseen s = .ok (members.foldl set config) t ∧ t.Holds ('\x7d' :: rest) := by
  induction members generalizing config first unseen s text with
  | nil =>
    obtain ⟨-, hclose⟩ : _ ∧ behindBlanks text = '\x7d' :: rest := by
      rcases hspelled with h | ⟨_, _, _, _, h, -⟩
      · exact h
      · cases h
    obtain ⟨t, hmore, ht⟩ := (Reader.exact_hasMember first).complete hs (Or.inl ⟨rfl, rest, hclose, rfl⟩)
    refine ⟨t, ?_, ht⟩
    rw [readMembers]
    exact Stateful.bind_ok hmore
  | cons m members ih =>
    obtain ⟨start, next, hnext, hm, hmembers⟩ : ∃ start next, NextAt first text start ∧
        SpelledMember start m next ∧ Json.Spelled.More '\x7d' SpelledMember next members rest := by
      rcases hspelled with ⟨h, -⟩ | ⟨_, _, start, next, h, hnext, hm, hmembers⟩
      · cases h
      · cases h
        exact ⟨start, next, hnext, hm, hmembers⟩
    obtain ⟨htext, hmark, hvalue⟩ := hm
    generalize hname : m.key.text = name at htext
    obtain ⟨hchars⟩ := htext
    rw [List.map_cons, List.nodup_cons] at hnodup
    have hmem := hkeys m List.mem_cons_self
    have hleft : ∀ other ∈ members, other.key ∈ unseen.erase m.key := by
      intro other hother
      have hne : other.key ≠ m.key := fun h => hnodup.1 (h ▸ List.mem_map_of_mem hother)
      exact (List.mem_erase_of_ne hne).mpr (hkeys other (List.mem_cons_of_mem m hother))
    obtain ⟨mid, hmore, hmid⟩ := (Reader.exact_hasMember first).complete hs (Or.inr ⟨rfl, hnext, rfl⟩)
    obtain ⟨behind, hpass, hbehind⟩ := Reader.exists_pass (by decide) hmid
    obtain ⟨last, hbody, hlast⟩ := Reader.exact_stringBody.complete hbehind ⟨_, hchars, rfl⟩
    obtain ⟨separated, hcolon, hseparated⟩ := Reader.exact_colon.complete (a := ()) hlast hmark
    obtain ⟨after, hread, hafter⟩ := (exact_readValue config m.key).complete hseparated ⟨m, rfl, hvalue, rfl⟩
    obtain ⟨t, hrest, ht⟩ := ih hafter (Json.more_iff.mp hmembers) hnodup.2 hleft
    refine ⟨t, ?_, ht⟩
    rw [readMembers, Stateful.bind_ok hmore, if_pos rfl, Stateful.bind_ok hpass, Stateful.bind_ok hbody,
      ofText?_eq_some_iff.mpr hname]
    dsimp only
    rw [dif_pos hmem, Stateful.bind_ok hcolon, Stateful.bind_ok (Reader.within_eq_ok_iff.mpr hread)]
    exact hrest

theorem exact_object : Exact
    (readMembers {} true keys >>= fun config => Reader.closeObject >>= fun _ => return config)
    fun text config rest => ∃ members, From true '\x7d' SpelledMember text members rest ∧
      (members.map Member.key).Nodup ∧ config = members.foldl set {} := by
  constructor
  · intro s t text config hs h
    obtain ⟨_, mid, hread, h⟩ := Stateful.bind_eq_ok_iff.mp h
    obtain ⟨members, rest, hmid, hspelled, hnodup, -, rfl⟩ := readMembers_sound (by decide) hs hread
    obtain ⟨last, hclose, hlast⟩ := Reader.exact_closeObject.complete (a := ()) hmid rfl
    rw [Stateful.bind_ok hclose] at h
    cases h
    exact ⟨rest, hlast, members, hspelled, hnodup, rfl⟩
  · rintro s text rest config hs ⟨members, hspelled, hnodup, rfl⟩
    obtain ⟨mid, hread, hmid⟩ := readMembers_complete hs hspelled hnodup fun m _ => mem_keys m.key
    obtain ⟨t, hclose, ht⟩ := Reader.exact_closeObject.complete (a := ()) hmid rfl
    refine ⟨t, ?_, ht⟩
    rw [Stateful.bind_ok hread, Stateful.bind_ok hclose]
    rfl

/-! ### Lists -/

theorem startsElement_of_spelledValue (h : SpelledValue text m rest) : Reader.StartsElement text := by
  have hnull {α : Type} {value : Spelling α} {a : Option α} (h : Json.Spelled.OrNull value text a rest)
      (hvalue : ∀ a, value text a rest → Reader.StartsElement text) : Reader.StartsElement text := by
    cases h with
    | null => exact Reader.startsElement_cons (by decide) _
    | value h => exact hvalue _ h
  cases m with
  | namespaces value =>
    refine hnull h fun a h => ?_
    obtain ⟨mid, rfl, -⟩ := Json.between_iff.mp h
    exact Reader.startsElement_cons (by decide) _
  | threads value =>
    refine hnull h fun n h => ?_
    cases text with
    | nil => exact absurd h Reader.not_natural_nil
    | cons c text =>
      refine Reader.startsElement_cons ?_ _
      rintro rfl
      exact absurd (Reader.natural_cons_iff.mp h).1 (by decide)
  | otelEndpoint value =>
    refine hnull h fun a h => ?_
    cases h
    exact Reader.startsElement_cons (by decide) _

/-- The values of the keys are read in their order, and then the end of the list. -/
theorem readElements_sound {config result : Config} {index : Nat} {left : List Key} (hs : s.Holds text)
    (h : (readElements config index left >>= fun result => Reader.closeList >>= fun _ => return result) s =
      .ok result t) :
    ∃ rest, t.Holds rest ∧ ∃ members, From (index == 0) ']' SpelledValue text members rest ∧
      members.map Member.key <+: left ∧ result = members.foldl set config := by
  induction left generalizing config index s text with
  | nil =>
    obtain ⟨rest, ht, -, mid, hclose, rfl, rfl⟩ :=
      (Reader.exact_closeList.bind fun _ => Exact.pure config).sound hs h
    exact ⟨rest, ht, [], Or.inl ⟨rfl, hclose⟩, List.nil_prefix, rfl⟩
  | cons key left ih =>
    rw [readElements, bind_assoc] at h
    obtain ⟨more, mid, hmore, h⟩ := Stateful.bind_eq_ok_iff.mp h
    obtain ⟨start, hmid, hspelled⟩ := (Reader.exact_hasElement _).sound hs hmore
    rcases hspelled with ⟨rfl, rest, hclose, rfl⟩ | ⟨rfl, hnext, -⟩
    · obtain ⟨last, hend, hlast⟩ := Reader.exists_closeList hmid
      have h : (Reader.closeList >>= fun _ => return config) mid = .ok result t := h
      rw [Stateful.bind_ok hend] at h
      cases h
      exact ⟨rest, hlast, [], Or.inl ⟨rfl, hclose⟩, List.nil_prefix, rfl⟩
    · rw [if_pos rfl, bind_assoc] at h
      obtain ⟨_, behind, hread, h⟩ := Stateful.bind_eq_ok_iff.mp h
      obtain ⟨next, hbehind, m, rfl, hm, rfl⟩ :=
        (exact_readValue config key).sound hmid (Reader.within_eq_ok_iff.mp hread)
      obtain ⟨rest, ht, members, hmembers, hfront, rfl⟩ := ih hbehind h
      rw [Json.behindBlanks_of_nextAt hnext] at hm
      exact ⟨rest, ht, m :: members, Or.inr ⟨m, members, start, next, rfl, hnext, hm, Json.more_iff.mpr hmembers⟩,
        List.cons_prefix_cons.mpr ⟨rfl, hfront⟩, rfl⟩

theorem readElements_complete {config : Config} {index : Nat} {left : List Key} {members : List Member}
    (hs : s.Holds text) (hspelled : From (index == 0) ']' SpelledValue text members rest)
    (hfront : members.map Member.key <+: left) :
    ∃ t, (readElements config index left >>= fun result => Reader.closeList >>= fun _ => return result) s =
      .ok (members.foldl set config) t ∧ t.Holds rest := by
  induction left generalizing config index members s text with
  | nil =>
    obtain rfl : members = [] := List.map_eq_nil_iff.mp (List.prefix_nil.mp hfront)
    rcases hspelled with ⟨-, hclose⟩ | ⟨_, _, _, _, h, -⟩
    · exact (Reader.exact_closeList.bind fun _ => Exact.pure config).complete hs ⟨(), rest, hclose, rfl, rfl⟩
    · cases h
  | cons key left ih =>
    rw [readElements, bind_assoc]
    rcases hspelled with ⟨rfl, hclose⟩ | ⟨m, members, start, next, rfl, hnext, hm, hmembers⟩
    · obtain ⟨mid, hmore, hmid⟩ := (Reader.exact_hasElement _).complete hs (Or.inl ⟨rfl, rest, hclose, rfl⟩)
      obtain ⟨t, hend, ht⟩ := Reader.exists_closeList hmid
      refine ⟨t, (Stateful.bind_ok hmore).trans ?_, ht⟩
      have hread : (Reader.closeList >>= fun _ => return config) mid = .ok config t := Stateful.bind_ok hend
      exact hread
    · obtain ⟨rfl, htail⟩ := List.cons_prefix_cons.mp hfront
      obtain ⟨mid, hmore, hmid⟩ := (Reader.exact_hasElement _).complete hs
        (Or.inr ⟨rfl, hnext, startsElement_of_spelledValue hm⟩)
      rw [← Json.behindBlanks_of_nextAt hnext] at hm
      obtain ⟨behind, hread, hbehind⟩ := (exact_readValue config m.key).complete hmid ⟨m, rfl, hm, rfl⟩
      have hmembers : From (index + 1 == 0) ']' SpelledValue next members rest := Json.more_iff.mp hmembers
      obtain ⟨t, hrest, ht⟩ := ih hbehind hmembers htail
      refine ⟨t, ?_, ht⟩
      rw [Stateful.bind_ok hmore, if_pos rfl, bind_assoc, Stateful.bind_ok (Reader.within_eq_ok_iff.mpr hread)]
      exact hrest

theorem exact_elements : Exact
    (readElements {} 0 keys >>= fun config => Reader.closeList >>= fun _ => return config)
    fun text config rest => ∃ members, From true ']' SpelledValue text members rest ∧
      members.map Member.key <+: keys ∧ config = members.foldl set {} := by
  constructor
  · exact fun hs h => readElements_sound hs h
  · rintro s text rest config hs ⟨members, hspelled, hfront, rfl⟩
    exact readElements_complete hs hspelled hfront

/-! ### Texts -/

/-- The text begins with an object or with a list, and the configuration is what the members make of an empty one. -/
def Begins : Spelling Config := fun text config rest =>
  ∃ members, config = members.foldl set {} ∧
    (SpelledObject text members rest ∨ SpelledList text members rest)

theorem exact_reader : Exact reader Begins := by
  constructor
  · intro s t text config hs h
    obtain ⟨first, mid, hfirst, h⟩ := Stateful.bind_eq_ok_iff.mp h
    obtain ⟨hmid, hhead⟩ := Reader.firstByte_eq_ok hs hfirst
    by_cases hbrace : first = 0x7b
    · subst hbrace
      obtain ⟨rest, ht, more, hmore, members, hspelled, hnodup, rfl⟩ :=
        Reader.behind_mark_sound (x := '\x7b') (by decide) exact_object hmid hhead h
      exact ⟨rest, ht, members, rfl, Or.inl ⟨Json.between_iff.mpr ⟨more, hmore, hspelled⟩, hnodup⟩⟩
    by_cases hbracket : first = 0x5b
    · subst hbracket
      obtain ⟨rest, ht, more, hmore, members, hspelled, hfront, rfl⟩ :=
        Reader.behind_mark_sound (x := '[') (by decide) exact_elements hmid hhead h
      exact ⟨rest, ht, members, rfl, Or.inr ⟨Json.between_iff.mpr ⟨more, hmore, hspelled⟩, hfront⟩⟩
    simp only at h
    exact absurd h Reader.wrongType_ne_ok
  · rintro s text rest config hs ⟨members, rfl, ⟨hbetween, hnodup⟩ | ⟨hbetween, hfront⟩⟩
    · obtain ⟨more, hmore, hspelled⟩ := Json.between_iff.mp hbetween
      obtain ⟨mid, hfirst, hmid⟩ := Reader.exists_firstByte (by decide) hs hmore
      obtain ⟨t, hread, ht⟩ :=
        Reader.behind_mark_complete (by decide) exact_object hmid ⟨members, hspelled, hnodup, rfl⟩
      exact ⟨t, (Stateful.bind_ok hfirst).trans hread, ht⟩
    · obtain ⟨more, hmore, hspelled⟩ := Json.between_iff.mp hbetween
      obtain ⟨mid, hfirst, hmid⟩ := Reader.exists_firstByte (by decide) hs hmore
      obtain ⟨t, hread, ht⟩ := Reader.behind_mark_complete (by decide) exact_elements hmid
        ⟨members, hspelled, hfront, rfl⟩
      exact ⟨t, (Stateful.bind_ok hfirst).trans hread, ht⟩

theorem holds_toUTF8 (text : String) : Source.Holds { rest := text.toUTF8.data.toList } text.toList :=
  ModifiedUtf8.toList_toUTF8 text

theorem parse_eq_ok_iff {text : String} {config : Config} :
    parse text = .ok config ↔ ∃ rest, Begins text.toList config rest := by
  have hread : parse text = .ok config ↔
      ∃ t, reader { rest := text.toUTF8.data.toList } = .ok config t := by
    rw [parse, Json.readFront, EStateM.run]
    cases reader { rest := text.toUTF8.data.toList } <;> simp
  rw [hread]
  constructor
  · rintro ⟨t, h⟩
    obtain ⟨rest, -, hbegins⟩ := exact_reader.sound (holds_toUTF8 text) h
    exact ⟨rest, hbegins⟩
  · rintro ⟨rest, hbegins⟩
    obtain ⟨t, h, -⟩ := exact_reader.complete (holds_toUTF8 text) hbegins
    exact ⟨t, h⟩

/-- A text is taken if it begins with an object of known members with different keys, or with a list of values for
the first keys, and the configuration is the one that says what they say. All other texts are refused. -/
theorem taken_exact (text : String) (config : Config) : parse text = .ok config ↔
    ∃ members rest, config.Says members ∧
      (SpelledObject text.toList members rest ∨ SpelledList text.toList members rest) := by
  rw [parse_eq_ok_iff]
  constructor
  · rintro ⟨rest, members, hconfig, hspelled⟩
    exact ⟨members, rest, (says_iff (nodup_of_spelled hspelled) config).mpr hconfig, hspelled⟩
  · rintro ⟨members, rest, hsays, hspelled⟩
    exact ⟨rest, members, (says_iff (nodup_of_spelled hspelled) config).mp hsays, hspelled⟩

/-- An object is taken with more behind it, and a text that holds no object is taken too. -/
theorem behind_object_and_list_taken :
    (parse "\x7b\"threads\": 1\x7d x" = .ok { threads := some 1 } ∧
      ¬ ∃ members rest, SpelledObject "\x7b\"threads\": 1\x7d x".toList members rest ∧ behindBlanks rest = []) ∧
    parse "[[\"a/\"], 4]" = .ok { namespaces := some ["a/"], threads := some 4 } ∧
      ¬ ∃ members rest, SpelledObject "[[\"a/\"], 4]".toList members rest := by
  refine ⟨⟨by decide +kernel, ?_⟩, by decide +kernel, ?_⟩
  · rintro ⟨members, rest, hspelled, hblank⟩
    obtain ⟨t, hread, ht⟩ := exact_reader.complete (holds_toUTF8 _) ⟨members, rfl, Or.inl hspelled⟩
    -- the reader leaves the same text behind every object that the spelling finds
    have hleft : (match reader { rest := "\x7b\"threads\": 1\x7d x".toUTF8.data.toList } with
      | .ok _ t => t.rest
      | .error _ _ => []) = [0x20, 0x78] := by decide +kernel
    rw [hread] at hleft
    obtain ⟨more, rfl, hmore⟩ := Json.exists_of_plain_eq_char (x := ' ') (by decide) (ht.symm.trans hleft)
    obtain ⟨last, rfl, -⟩ := Json.exists_of_plain_eq_char (x := 'x') (by decide) hmore.symm
    cases hblank
  · rintro ⟨members, rest, hbetween, -⟩
    obtain ⟨mid, hmid, -⟩ := Json.between_iff.mp hbetween
    have hfront : behindBlanks "[[\"a/\"], 4]".toList = "[[\"a/\"], 4]".toList := by decide +kernel
    have hbracket : "[[\"a/\"], 4]".toList.head? = some '[' := by decide +kernel
    rw [← hfront, hmid] at hbracket
    cases hbracket

end

end Config
end ClassXref
