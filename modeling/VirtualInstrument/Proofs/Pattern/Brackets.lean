import Mathlib.Data.List.TakeWhile
import VirtualInstrument.Pattern.Reader
import VirtualInstrument.Proofs.Text.Digits
/- The brackets of a pattern, as they stand in its text. A round bracket opens or closes a group
   unless it stands behind a backslash or in a set. The tokens of a text say the same: an opening
   token for each bracket that opens, and a closing one for each that closes. -/
namespace VirtualInstrument.Pattern

open Text

/-- How far a text is read: whether in a set, whether behind a backslash, and in how many
    groups. -/
structure Bearing where
  inSet : Bool
  escaped : Bool
  depth : Nat
deriving DecidableEq, Repr

def Bearing.step? (b : Bearing) (u : CodeUnit) : Option Bearing :=
  if b.escaped then some { b with escaped := false }
  else if u = unit '\\' then some { b with escaped := true }
  else if b.inSet then some { b with inSet := u ≠ unit ']' }
  else if u = unit '[' then some { b with inSet := true }
  else if u = unit '(' then some { b with depth := b.depth + 1 }
  else if u = unit ')' then if b.depth = 0 then none else some { b with depth := b.depth - 1 }
  else some b

def scan? (b : Bearing) (t : Text) : Option Bearing := t.foldlM Bearing.step? b

def free (depth : Nat) : Bearing := ⟨false, false, depth⟩

/-- Every bracket that closes a group has one before it that opens the group. -/
def ClosesOwnGroups (t : Text) : Prop := (scan? (free 0) t).isSome = true

instance (t : Text) : Decidable (ClosesOwnGroups t) := inferInstanceAs (Decidable (_ = true))

theorem scan?_cons (b : Bearing) (u : CodeUnit) (rest : Text) :
    scan? b (u :: rest) = (b.step? u).bind (scan? · rest) := rfl

def Quiet (u : CodeUnit) : Prop :=
  u.toNat ≠ 40 ∧ u.toNat ≠ 41 ∧ u.toNat ≠ 91 ∧ u.toNat ≠ 92 ∧ u.toNat ≠ 93

instance (u : CodeUnit) : Decidable (Quiet u) := inferInstanceAs (Decidable (_ ∧ _))

theorem step?_quiet {u : CodeUnit} (quiet : Quiet u) (inSet : Bool) (depth : Nat) :
    Bearing.step? ⟨inSet, false, depth⟩ u = some ⟨inSet, false, depth⟩ := by
  have apart (c : Char) (n : Nat) (code : (unit c).toNat = n) (other : u.toNat ≠ n) :
      u ≠ unit c := by
    intro same
    exact other (by rw [same, code])
  obtain ⟨opens, closes, set, slash, last⟩ := quiet
  cases inSet with
  | false =>
    simp [Bearing.step?, apart '\\' 92 rfl slash, apart '[' 91 rfl set, apart '(' 40 rfl opens,
      apart ')' 41 rfl closes]
  | true => simp [Bearing.step?, apart '\\' 92 rfl slash, apart ']' 93 rfl last]

theorem quiet_of_digit {u : CodeUnit} (digit : isDigit u = true) : Quiet u := by
  have bounds := (isDigit_iff u).mp digit
  unfold Quiet
  omega

theorem quiet_of_octal {u : CodeUnit} (octal : isOctal u = true) : Quiet u := by
  simp only [isOctal, Bool.and_eq_true, decide_eq_true_eq, UInt16.le_iff_toNat_le,
    UInt16.reduceToNat] at octal
  unfold Quiet
  omega

theorem quiet_of_word {u : CodeUnit} (word : isWordUnit u = true) : Quiet u := by
  have bounds := (isWordUnit_iff u).mp word
  unfold Quiet
  omega

theorem quiet_of_letter {u : CodeUnit} (letter : isLetter u = true) : Quiet u :=
  quiet_of_word (by simp [isWordUnit, letter])

theorem quiet_of_identifier {u : CodeUnit} (part : isIdentifierPart u.toNat = true) : Quiet u := by
  by_cases ascii : u.toNat < 128
  · simp only [isIdentifierPart, isIdentifierStart, if_pos ascii, UInt16.ofNat_toNat,
      Bool.or_eq_true, beq_iff_eq] at part
    rcases part with ((letter | dollar) | line) | digit
    · exact quiet_of_letter letter
    · unfold Quiet
      omega
    · unfold Quiet
      omega
    · exact quiet_of_digit digit
  · unfold Quiet
    omega

theorem quiet_of_high {u : CodeUnit} (high : isHighSurrogate u = true) : Quiet u := by
  simp only [isHighSurrogate, Bool.and_eq_true, decide_eq_true_eq, UInt16.le_iff_toNat_le,
    UInt16.reduceToNat] at high
  unfold Quiet
  omega

theorem quiet_of_low {u : CodeUnit} (low : isLowSurrogate u = true) : Quiet u := by
  simp only [isLowSurrogate, Bool.and_eq_true, decide_eq_true_eq, UInt16.le_iff_toNat_le,
    UInt16.reduceToNat] at low
  unfold Quiet
  omega

theorem quiet_of_hex {u : CodeUnit} (hex : (hexValue? u).isSome = true) : Quiet u := by
  unfold hexValue? at hex
  split at hex
  · exact quiet_of_digit ‹_›
  · split at hex
    · rename_i capital
      simp only [Bool.and_eq_true, decide_eq_true_eq, UInt16.le_iff_toNat_le,
        UInt16.reduceToNat] at capital
      unfold Quiet
      omega
    · split at hex
      · rename_i small
        simp only [Bool.and_eq_true, decide_eq_true_eq, UInt16.le_iff_toNat_le,
          UInt16.reduceToNat] at small
        unfold Quiet
        omega
      · cases hex

/-- Reading goes from one place of a text to a later one: what is left is scanned alike. -/
structure Passes (start : Bearing) (t : Text) (stop : Bearing) (more : Text) : Prop where
  scan : scan? start t = scan? stop more
  shorter : more.length ≤ t.length

theorem Passes.refl (b : Bearing) (t : Text) : Passes b t b t := ⟨rfl, Nat.le_refl _⟩

theorem Passes.trans {b c d : Bearing} {t more last : Text} (first : Passes b t c more)
    (second : Passes c more d last) : Passes b t d last :=
  ⟨first.scan.trans second.scan, Nat.le_trans second.shorter first.shorter⟩

theorem Passes.cons {b c d : Bearing} {u : CodeUnit} {rest more : Text}
    (step : b.step? u = some c) (later : Passes c rest d more) : Passes b (u :: rest) d more := by
  refine ⟨?_, Nat.le_succ_of_le later.shorter⟩
  rw [scan?_cons, step]
  exact later.scan

theorem Passes.append {b c : Bearing} {t : Text} (whole : Passes b t c []) (more : Text) :
    Passes b (t ++ more) c more := by
  refine ⟨?_, by simp⟩
  have reached : scan? b t = some c := whole.scan
  rw [scan?, List.foldlM_append, ← scan?, reached]
  rfl

section Settled
variable {inSet : Bool} {depth : Nat}

theorem Passes.of_quiet {passed : Text} (quiet : ∀ u ∈ passed, Quiet u) (more : Text) :
    Passes ⟨inSet, false, depth⟩ (passed ++ more) ⟨inSet, false, depth⟩ more := by
  induction passed with
  | nil => exact .refl _ _
  | cons u passed ih =>
    obtain ⟨first, others⟩ := List.forall_mem_cons.mp quiet
    exact .cons (step?_quiet first inSet depth) (ih others)

theorem Passes.dropWhile {p : CodeUnit → Bool} (quiet : ∀ u, p u = true → Quiet u) (t : Text) :
    Passes ⟨inSet, false, depth⟩ t ⟨inSet, false, depth⟩ (t.dropWhile p) := by
  have passed : Passes ⟨inSet, false, depth⟩ (t.takeWhile p ++ t.dropWhile p)
      ⟨inSet, false, depth⟩ (t.dropWhile p) :=
    .of_quiet (fun u member => quiet u (List.mem_takeWhile_imp member)) _
  rwa [List.takeWhile_append_dropWhile] at passed

theorem Passes.drop {t : Text} {count : Nat} (quiet : ∀ u ∈ t.take count, Quiet u) :
    Passes ⟨inSet, false, depth⟩ t ⟨inSet, false, depth⟩ (t.drop count) := by
  have passed : Passes ⟨inSet, false, depth⟩ (t.take count ++ t.drop count)
      ⟨inSet, false, depth⟩ (t.drop count) := .of_quiet quiet _
  rwa [List.take_append_drop] at passed

theorem Passes.quiet_unescaped {u : CodeUnit} (quiet : Quiet u) (rest : Text) :
    Passes ⟨inSet, true, depth⟩ (u :: rest) ⟨inSet, false, depth⟩ (u :: rest) := by
  refine ⟨?_, Nat.le_refl _⟩
  rw [scan?_cons, scan?_cons, step?_quiet quiet]
  rfl

theorem Passes.escaped_unit (u : CodeUnit) (rest : Text) :
    Passes ⟨inSet, true, depth⟩ (u :: rest) ⟨inSet, false, depth⟩ rest :=
  .cons rfl (.refl _ _)

theorem hexValue?_of_mapM {digits : Text} {values : List Nat}
    (all : digits.mapM hexValue? = some values) : ∀ u ∈ digits, (hexValue? u).isSome = true := by
  induction digits generalizing values with
  | nil => simp
  | cons u digits ih =>
    rw [List.mapM_cons] at all
    obtain ⟨value, first, later⟩ := Option.bind_eq_some_iff.mp all
    obtain ⟨others, rest, _⟩ := Option.bind_eq_some_iff.mp later
    exact List.forall_mem_cons.mpr ⟨by rw [first]; rfl, ih rest⟩

theorem takeHex?_passes {count : Nat} {t more : Text} {u : CodeUnit}
    (taken : takeHex? count t = some (u, more)) :
    Passes ⟨inSet, false, depth⟩ t ⟨inSet, false, depth⟩ more := by
  unfold takeHex? at taken
  dsimp only at taken
  split at taken
  · cases taken
  · obtain ⟨values, all, same⟩ := Option.map_eq_some_iff.mp taken
    cases same
    refine .drop ?_
    intro v member
    exact quiet_of_hex (hexValue?_of_mapM all v member)

theorem takeOctal_passes (t : Text) :
    Passes ⟨inSet, false, depth⟩ t ⟨inSet, false, depth⟩ (takeOctal t).2 := by
  have digits (count : Nat) : t.take ((t.take count).takeWhile isOctal).length =
      (t.take count).takeWhile isOctal :=
    (List.prefix_iff_eq_take.mp
      ((List.takeWhile_prefix isOctal).trans (List.take_prefix count t))).symm
  refine .drop ?_
  rw [digits]
  intro u member
  exact quiet_of_octal (List.mem_takeWhile_imp member)

theorem takeEscapedUnit_passes {scope : Scope} {t more : Text} {u : CodeUnit}
    (taken : takeEscapedUnit scope inSet t = some (u, more)) :
    Passes ⟨inSet, true, depth⟩ t ⟨inSet, false, depth⟩ more := by
  cases t with
  | nil => cases taken
  | cons v rest =>
    rw [takeEscapedUnit.eq_def] at taken
    dsimp only at taken
    have hex (count : Nat) (same : (takeHex? count rest).getD (v, rest) = (u, more)) :
        Passes ⟨inSet, true, depth⟩ (v :: rest) ⟨inSet, false, depth⟩ more := by
      refine (Passes.escaped_unit v rest).trans ?_
      cases found : takeHex? count rest with
      | none =>
        rw [found] at same
        cases same
        exact .refl _ _
      | some pair =>
        rw [found] at same
        cases same
        exact takeHex?_passes found
    split at taken
    · rename_i octal
      cases taken
      exact (Passes.quiet_unescaped (quiet_of_octal octal) rest).trans (takeOctal_passes _)
    · split at taken
      · rename_i shown
        have control : Quiet v := by
          rw [eq_unit_of_glyph shown (by decide)]
          decide
        split at taken
        · split at taken
          · rename_i w last named
            cases taken
            have quiet : Quiet w := by
              simp only [Bool.or_eq_true, Bool.and_eq_true] at named
              rcases named with letter | ⟨_, word⟩
              · exact quiet_of_letter letter
              · exact quiet_of_word word
            exact (Passes.escaped_unit v _).trans (.cons (step?_quiet quiet _ _) (.refl _ _))
          · cases taken
            exact .quiet_unescaped control _
        · cases taken
          exact .quiet_unescaped control _
      · exact hex 2 (Option.some.inj taken)
      · exact hex 4 (Option.some.inj taken)
      · split at taken
        · cases taken
        · cases taken
          exact .escaped_unit _ _
      · cases taken
        exact .escaped_unit _ _

theorem after?_eq_some {start t rest : Text} (found : after? start t = some rest) :
    t = start ++ rest := by
  unfold after? at found
  split at found
  · rename_i begins
    cases found
    exact (List.prefix_iff_eq_append.mp (List.isPrefixOf_iff_prefix.mp begins)).symm
  · cases found

theorem after?_passes {start t rest : Text} (found : after? start t = some rest)
    (quiet : start.all (decide <| Quiet ·) = true) :
    Passes ⟨inSet, false, depth⟩ t ⟨inSet, false, depth⟩ rest := by
  rw [after?_eq_some found]
  exact .of_quiet (fun u member => of_decide_eq_true (List.all_eq_true.mp quiet u member)) rest

theorem takePoint?_passes {t more : Text} {point : Nat}
    (taken : takePoint? t = some (point, more)) :
    Passes ⟨inSet, false, depth⟩ t ⟨inSet, false, depth⟩ more := by
  unfold takePoint? at taken
  split at taken
  · rename_i body opened
    obtain ⟨rest, closed, same⟩ := Option.map_eq_some_iff.mp taken
    cases same
    have digits : Passes ⟨inSet, false, depth⟩ body ⟨inSet, false, depth⟩
        (body.dropWhile fun u => (hexValue? u).isSome) := .dropWhile (fun _ => quiet_of_hex) body
    exact ((after?_passes opened (by decide)).trans digits).trans (after?_passes closed (by decide))
  · obtain ⟨⟨high, rest⟩, first, same⟩ := Option.map_eq_some_iff.mp taken
    dsimp only at same
    split at same
    · rename_i low last second
      split at same
      · obtain ⟨-, rfl⟩ := Prod.mk.inj same
        obtain ⟨left, slash, digits⟩ := Option.bind_eq_some_iff.mp second
        rw [after?_eq_some slash] at first
        refine (takeHex?_passes first).trans (.cons (c := ⟨inSet, true, depth⟩) rfl ?_)
        exact (Passes.escaped_unit _ _).trans (takeHex?_passes digits)
      · cases same
        exact takeHex?_passes first
    · cases same
      exact takeHex?_passes first

theorem takeNamePoint?_passes {t more : Text} {point : Nat}
    (taken : takeNamePoint? t = some (point, more)) (part : isIdentifierPart point = true) :
    Passes ⟨inSet, false, depth⟩ t ⟨inSet, false, depth⟩ more := by
  cases t with
  | nil => cases taken
  | cons u rest =>
    rw [takeNamePoint?.eq_def] at taken
    dsimp only at taken
    split at taken
    · rename_i slash
      obtain ⟨body, letter, escape⟩ := Option.bind_eq_some_iff.mp taken
      rw [after?_eq_some letter, slash]
      refine .cons (c := ⟨inSet, true, depth⟩) rfl ?_
      exact (Passes.escaped_unit _ _).trans (takePoint?_passes escape)
    · split at taken
      · cases taken
        exact .cons (step?_quiet (quiet_of_identifier part) _ _) (.refl _ _)
      · split at taken
        · rename_i pair
          obtain ⟨high, low⟩ := Bool.and_eq_true_iff.mp pair
          obtain ⟨-, rfl⟩ := Prod.mk.inj (Option.some.inj taken)
          exact .cons (step?_quiet (quiet_of_high high) _ _)
            (.cons (step?_quiet (quiet_of_low low) _ _) (.refl _ _))
        · cases taken
          exact .cons (step?_quiet (quiet_of_identifier part) _ _) (.refl _ _)

theorem namePoints?_passes {fuel : Nat} {t : Text} {found : List Nat}
    (read : namePoints? fuel t = some found) (parts : ∀ point ∈ found, isIdentifierPart point = true) :
    Passes ⟨inSet, false, depth⟩ t ⟨inSet, false, depth⟩ [] := by
  induction fuel generalizing t found with
  | zero =>
    cases t with
    | nil => exact .refl _ _
    | cons u rest => cases read
  | succ fuel ih =>
    cases t with
    | nil => exact .refl _ _
    | cons u rest =>
      obtain ⟨⟨point, more⟩, first, read⟩ := Option.bind_eq_some_iff.mp read
      obtain ⟨others, later, same⟩ := Option.bind_eq_some_iff.mp read
      cases same
      obtain ⟨part, parts⟩ := List.forall_mem_cons.mp parts
      exact (takeNamePoint?_passes first part).trans (ih later parts)

theorem parts_of_name {found : List Nat} (name : isName found = true) :
    ∀ point ∈ found, isIdentifierPart point = true := by
  cases found with
  | nil => cases name
  | cons first others =>
    obtain ⟨start, parts⟩ := Bool.and_eq_true_iff.mp name
    refine List.forall_mem_cons.mpr ⟨?_, List.all_eq_true.mp parts⟩
    rw [isIdentifierPart, start, Bool.true_or]

theorem takeName?_passes {t name more : Text} (taken : takeName? t = some (name, more)) :
    Passes ⟨inSet, false, depth⟩ t ⟨inSet, false, depth⟩ more := by
  unfold takeName? at taken
  obtain ⟨rest, closed, taken⟩ := Option.bind_eq_some_iff.mp taken
  obtain ⟨found, read, taken⟩ := Option.bind_eq_some_iff.mp taken
  split at taken
  · rename_i named
    cases taken
    have written : Passes ⟨inSet, false, depth⟩ (t.takeWhile (· ≠ unit '>'))
        ⟨inSet, false, depth⟩ [] := namePoints?_passes read (parts_of_name named)
    have passed := written.append (t.dropWhile (· ≠ unit '>'))
    rw [List.takeWhile_append_dropWhile] at passed
    exact passed.trans (after?_passes closed (by decide))
  · cases taken

theorem takeNamedReference?_passes {scope : Scope} {t more : Text} {token : Token}
    (taken : takeNamedReference? scope t = some (token, more)) :
    (∃ index, token = .part (.again index)) ∧
      Passes ⟨inSet, false, depth⟩ t ⟨inSet, false, depth⟩ more := by
  unfold takeNamedReference? at taken
  obtain ⟨body, opened, taken⟩ := Option.bind_eq_some_iff.mp taken
  obtain ⟨⟨name, rest⟩, named, taken⟩ := Option.bind_eq_some_iff.mp taken
  obtain ⟨index, _, same⟩ := Option.bind_eq_some_iff.mp taken
  cases same
  exact ⟨⟨index, rfl⟩, (after?_passes opened (by decide)).trans (takeName?_passes named)⟩

end Settled

/-! Sets -/

def membersBehind (scope : Scope) (fuel : Nat) (low : SetItem) (t : Text) :
    Option (List SetItem × Text) :=
  let single := (takeMembers scope fuel t).map fun taken => (low :: taken.1, taken.2)
  match t with
  | dash :: next :: more =>
    if dash ≠ unit '-' then single
    else if next = unit ']' then some ([low, hyphen], more)
    else (takeMember scope (next :: more)).bind fun high => (spanOf? low high.1).bind fun span =>
      (takeMembers scope fuel high.2).map fun taken => (span ++ taken.1, taken.2)
  | _ => single

theorem takeMembers_succ (scope : Scope) (fuel : Nat) (u : CodeUnit) (rest : Text) :
    takeMembers scope (fuel + 1) (u :: rest) =
      if u = unit ']' then some ([], rest)
      else (takeMember scope (u :: rest)).bind fun low =>
        membersBehind scope fuel low.1 low.2 := by
  have single (low : SetItem) (t : Text) :
      ((takeMembers scope fuel t).bind fun taken => some (low :: taken.1, taken.2)) =
        (takeMembers scope fuel t).map fun taken => (low :: taken.1, taken.2) := by
    rw [Option.map_eq_bind]
    rfl
  have spanned (span : List SetItem) (t : Text) :
      ((takeMembers scope fuel t).bind fun taken => some (span ++ taken.1, taken.2)) =
        (takeMembers scope fuel t).map fun taken => (span ++ taken.1, taken.2) := by
    rw [Option.map_eq_bind]
    rfl
  simp only [takeMembers, Option.bind_eq_bind, single, spanned]
  rfl

theorem membersBehind_single (scope : Scope) (fuel : Nat) (low : SetItem) {t : Text}
    (plain : ∀ more, t ≠ unit '-' :: more) :
    membersBehind scope fuel low t =
      (takeMembers scope fuel t).map fun taken => (low :: taken.1, taken.2) := by
  unfold membersBehind
  split
  · rename_i dash next more
    rw [if_pos fun same => plain _ (congrArg (· :: _) same)]
  · rfl

section Members
variable {scope : Scope} {depth : Nat}

theorem takeMember_passes (depth : Nat) {u : CodeUnit} {rest more : Text} {item : SetItem}
    (open' : u ≠ unit ']') (taken : takeMember scope (u :: rest) = some (item, more)) :
    Passes ⟨true, false, depth⟩ (u :: rest) ⟨true, false, depth⟩ more ∧
      more.length ≤ rest.length := by
  rw [takeMember.eq_def] at taken
  dsimp only at taken
  split at taken
  · rename_i plain
    cases taken
    have step : Bearing.step? ⟨true, false, depth⟩ u = some ⟨true, false, depth⟩ := by
      simp [Bearing.step?, plain, open']
    exact ⟨.cons step (.refl _ _), Nat.le_refl _⟩
  · rename_i slash
    have step : Bearing.step? ⟨true, false, depth⟩ u = some ⟨true, true, depth⟩ := by
      rw [not_not.mp slash]
      rfl
    have onward (passed : Passes ⟨true, true, depth⟩ rest ⟨true, false, depth⟩ more) :
        Passes ⟨true, false, depth⟩ (u :: rest) ⟨true, false, depth⟩ more ∧
          more.length ≤ rest.length := ⟨.cons step passed, passed.shorter⟩
    cases rest with
    | nil => cases taken
    | cons v others =>
      dsimp only at taken
      split at taken
      · cases taken
        exact onward (.escaped_unit v _)
      · split at taken
        · cases taken
          exact onward (.escaped_unit v _)
        · obtain ⟨pair, found, same⟩ := Option.map_eq_some_iff.mp taken
          cases same
          exact onward (takeEscapedUnit_passes found)

theorem takeMembers_passes {fuel : Nat} {t more : Text} {items : List SetItem}
    (taken : takeMembers scope fuel t = some (items, more)) :
    Passes ⟨true, false, depth⟩ t ⟨false, false, depth⟩ more := by
  induction fuel generalizing t items with
  | zero => cases taken
  | succ fuel ih =>
    cases t with
    | nil => cases taken
    | cons u rest =>
      rw [takeMembers_succ] at taken
      split at taken
      · rename_i closes
        cases taken
        rw [closes]
        exact .cons rfl (.refl _ _)
      · rename_i open'
        obtain ⟨⟨low, afterLow⟩, member, behind⟩ := Option.bind_eq_some_iff.mp taken
        refine (takeMember_passes depth open' member).1.trans ?_
        have single {low : SetItem} {t : Text}
            (one : ((takeMembers scope fuel t).map fun taken => (low :: taken.1, taken.2)) =
              some (items, more)) : Passes ⟨true, false, depth⟩ t ⟨false, false, depth⟩ more := by
          obtain ⟨pair, later, same⟩ := Option.map_eq_some_iff.mp one
          cases same
          exact ih later
        unfold membersBehind at behind
        dsimp only at behind
        split at behind
        · split at behind
          · exact single behind
          · rename_i dash
            have hyphen : Quiet (unit '-') := by decide
            rw [not_not.mp dash]
            refine .cons (step?_quiet hyphen _ _) ?_
            split at behind
            · rename_i closes
              cases behind
              rw [closes]
              exact .cons rfl (.refl _ _)
            · rename_i inside
              obtain ⟨⟨high, afterHigh⟩, last, behind⟩ := Option.bind_eq_some_iff.mp behind
              obtain ⟨span, _, behind⟩ := Option.bind_eq_some_iff.mp behind
              obtain ⟨pair, later, same⟩ := Option.map_eq_some_iff.mp behind
              cases same
              exact (takeMember_passes depth inside last).1.trans (ih later)
        · exact single behind

theorem takeSet_passes (depth : Nat) {t more : Text} {token : Token}
    (taken : takeSet scope t = some (token, more)) :
    (∃ tree, token = .part tree) ∧ Passes ⟨true, false, depth⟩ t ⟨false, false, depth⟩ more := by
  unfold takeSet at taken
  split at taken
  rename_i negated body marked
  obtain ⟨pair, members, same⟩ := Option.map_eq_some_iff.mp taken
  cases same
  refine ⟨⟨_, rfl⟩, ?_⟩
  split at marked
  · rename_i found
    cases marked
    exact (after?_passes found (by decide)).trans (takeMembers_passes members)
  · cases marked
    exact takeMembers_passes members

end Members

/-! Tokens -/

def Token.depth? (depth : Nat) : Token → Option Nat
  | .opens _ => some (depth + 1)
  | .closes => if depth = 0 then none else some (depth - 1)
  | _ => some depth

def Token.Level (token : Token) : Prop := ∀ depth, token.depth? depth = some depth

structure Cut (t : Text) (token : Token) (more : Text) : Prop where
  scan : ∀ depth, scan? (free depth) t = (token.depth? depth).bind fun next => scan? (free next) more
  shorter : more.length < t.length

theorem Cut.of_level {u : CodeUnit} {rest more : Text} {token : Token} {inSet escaped : Bool}
    (level : token.Level) (step : ∀ depth, (free depth).step? u = some ⟨inSet, escaped, depth⟩)
    (passes : ∀ depth, Passes ⟨inSet, escaped, depth⟩ rest (free depth) more) :
    Cut (u :: rest) token more := by
  refine ⟨?_, Nat.lt_succ_of_le (passes 0).shorter⟩
  intro depth
  rw [level depth, scan?_cons, step depth]
  exact (passes depth).scan

theorem Cut.of_quiet_unit {u : CodeUnit} {rest more : Text} {token : Token} (quiet : Quiet u)
    (level : token.Level) (passes : ∀ depth, Passes (free depth) rest (free depth) more) :
    Cut (u :: rest) token more :=
  .of_level level (fun depth => step?_quiet quiet false depth) passes

theorem takeEscape_cut {scope : Scope} {rest more : Text} {token : Token}
    (taken : takeEscape scope rest = some (token, more)) :
    Cut (unit '\\' :: rest) token more := by
  have onward (level : token.Level)
      (passes : ∀ depth, Passes ⟨false, true, depth⟩ rest (free depth) more) :
      Cut (unit '\\' :: rest) token more := .of_level level (fun _ => rfl) passes
  cases rest with
  | nil => cases taken
  | cons u rest =>
    rw [takeEscape] at taken
    dsimp only at taken
    split at taken
    · rename_i number
      simp only [Bool.and_eq_true, Bool.not_eq_true', List.isEmpty_eq_false_iff] at number
      have digit : isDigit u = true := by
        by_contra other
        exact number.1.2 (List.takeWhile_cons_of_neg other)
      cases taken
      refine onward (fun _ => rfl) fun depth => ?_
      exact (Passes.quiet_unescaped (quiet_of_digit digit) rest).trans
        (.dropWhile (fun _ => quiet_of_digit) _)
    · split at taken
      · cases taken
        exact onward (fun _ => rfl) fun depth => .escaped_unit u _
      · split at taken
        · cases taken
          exact onward (fun _ => rfl) fun depth => .escaped_unit u _
        · split at taken
          · have named (depth : Nat) : (∃ index, token = .part (.again index)) ∧
                Passes (free depth) rest (free depth) more := takeNamedReference?_passes taken
            obtain ⟨index, rfl⟩ := (named 0).1
            exact onward (fun _ => rfl) fun depth => (Passes.escaped_unit u _).trans (named depth).2
          · split at taken
            · cases taken
              exact onward (fun _ => rfl) fun depth => .escaped_unit u _
            · obtain ⟨pair, found, same⟩ := Option.map_eq_some_iff.mp taken
              cases same
              exact onward (fun _ => rfl) fun depth => takeEscapedUnit_passes found

theorem repetition_cut {u : CodeUnit} {rest inner more : Text} {token : Token} {least : Nat}
    {most : Option Nat} (quiet : Quiet u)
    (passes : ∀ depth, Passes (free depth) rest (free depth) inner)
    (taken : repetition least most inner = some (token, more)) : Cut (u :: rest) token more := by
  have taken := (Option.ite_none_left_eq_some.mp taken).2
  split at taken
  · rename_i lazily
    cases taken
    exact .of_quiet_unit quiet (fun _ => rfl) fun depth =>
      (passes depth).trans (after?_passes lazily (by decide))
  · cases taken
    exact .of_quiet_unit quiet (fun _ => rfl) passes

theorem takeBounds?_passes {t more : Text} {least : Nat} {most : Option Nat}
    (taken : takeBounds? t = some (least, most, more)) (depth : Nat) :
    Passes (free depth) t (free depth) more := by
  have digits (t : Text) : Passes (free depth) t (free depth) (t.dropWhile isDigit) :=
    .dropWhile (fun _ => quiet_of_digit) t
  have brace (t : Text) : Passes (free depth) (125 :: t) (free depth) t :=
    .cons (step?_quiet (by decide) false depth) (.refl _ _)
  have comma (t : Text) : Passes (free depth) (44 :: t) (free depth) t :=
    .cons (step?_quiet (by decide) false depth) (.refl _ _)
  have first := digits t
  unfold takeBounds? at taken
  dsimp only at taken
  split at taken
  · cases taken
  · split at taken
    · rename_i rest left
      cases taken
      rw [left] at first
      exact first.trans (brace more)
    · rename_i rest left
      rw [left] at first
      have second := first.trans ((comma rest).trans (digits rest))
      split at taken
      · rename_i last ended
        cases taken
        rw [ended] at second
        exact second.trans (brace more)
      · cases taken
    · cases taken

theorem takeGroup_cut {rest more : Text} {token : Token}
    (taken : takeGroup rest = some (token, more)) : Cut (unit '(' :: rest) token more := by
  have opens (kind : GroupKind)
      (passes : ∀ depth, Passes (free depth) rest (free depth) more) :
      Cut (unit '(' :: rest) (.opens kind) more :=
    ⟨fun depth => (passes (depth + 1)).scan, Nat.lt_succ_of_le (passes 0).shorter⟩
  unfold takeGroup at taken
  split at taken
  · cases taken
    exact opens _ fun depth => .refl _ _
  · rename_i body marked
    have behind (depth : Nat) : Passes (free depth) rest (free depth) body :=
      after?_passes marked (by decide)
    have marked {start last : Text} (found : after? start body = some last)
        (quiet : start.all (decide <| Quiet ·) = true) (depth : Nat) :
        Passes (free depth) rest (free depth) last :=
      (behind depth).trans (after?_passes found quiet)
    split at taken
    · cases taken
      exact opens _ (marked ‹after? (text ":") body = some more› (by decide))
    · cases taken
      exact opens _ (marked ‹after? (text "=") body = some more› (by decide))
    · cases taken
      exact opens _ (marked ‹after? (text "!") body = some more› (by decide))
    · cases taken
      exact opens _ (marked ‹after? (text "<=") body = some more› (by decide))
    · cases taken
      exact opens _ (marked ‹after? (text "<!") body = some more› (by decide))
    · rename_i last _ _ _ _ _ _
      obtain ⟨pair, named, same⟩ := Option.map_eq_some_iff.mp taken
      cases same
      have found := marked ‹after? (text "<") body = some last› (by decide)
      exact opens _ fun depth => (found depth).trans (takeName?_passes named)
    · cases taken

/-- Every token that is taken from a text leads to the depth that its brackets lead to. -/
theorem takeToken_cut {scope : Scope} {t more : Text} {token : Token}
    (taken : takeToken scope t = some (token, more)) : Cut t token more := by
  cases t with
  | nil => cases taken
  | cons u rest =>
    rw [takeToken.eq_def] at taken
    dsimp only at taken
    have glyphed {c : Char} (shown : glyph u = c) (other : c ≠ '\uFFFD') : u = unit c :=
      eq_unit_of_glyph shown other
    split at taken
    · rename_i shown
      cases taken
      rw [glyphed shown (by decide)]
      exact .of_quiet_unit (by decide) (fun _ => rfl) fun _ => .refl _ _
    · rename_i shown
      cases taken
      rw [glyphed shown (by decide)]
      exact .of_quiet_unit (by decide) (fun _ => rfl) fun _ => .refl _ _
    · rename_i shown
      cases taken
      rw [glyphed shown (by decide)]
      exact .of_quiet_unit (by decide) (fun _ => rfl) fun _ => .refl _ _
    · rename_i shown
      cases taken
      rw [glyphed shown (by decide)]
      exact .of_quiet_unit (by decide) (fun _ => rfl) fun _ => .refl _ _
    · rename_i shown
      rw [glyphed shown (by decide)]
      exact takeGroup_cut taken
    · rename_i shown
      cases taken
      rw [glyphed shown (by decide)]
      refine ⟨fun depth => ?_, Nat.lt_succ_self _⟩
      cases depth with
      | zero => rfl
      | succ depth => rfl
    · rename_i shown
      rw [glyphed shown (by decide)]
      exact repetition_cut (by decide) (fun _ => .refl _ _) taken
    · rename_i shown
      rw [glyphed shown (by decide)]
      exact repetition_cut (by decide) (fun _ => .refl _ _) taken
    · rename_i shown
      rw [glyphed shown (by decide)]
      exact repetition_cut (by decide) (fun _ => .refl _ _) taken
    · rename_i shown
      rw [glyphed shown (by decide)]
      split at taken
      · rename_i bounds
        exact repetition_cut (by decide) (takeBounds?_passes bounds) taken
      · cases taken
        exact .of_quiet_unit (by decide) (fun _ => rfl) fun _ => .refl _ _
    · rename_i shown
      rw [glyphed shown (by decide)]
      obtain ⟨tree, rfl⟩ := (takeSet_passes 0 taken).1
      exact .of_level (fun _ => rfl) (fun _ => rfl) fun depth => (takeSet_passes depth taken).2
    · rename_i shown
      rw [glyphed shown (by decide)]
      exact takeEscape_cut taken
    · rename_i _ _ _ _ opens closes _ _ _ _ set slash
      cases taken
      have apart {c : Char} (other : glyph u ≠ c) (shown : glyph (unit c) = c) : u ≠ unit c := by
        intro same
        exact other (by rw [same, shown])
      have step (depth : Nat) : (free depth).step? u = some (free depth) := by
        simp [Bearing.step?, free, apart slash rfl, apart set rfl, apart opens rfl,
          apart closes rfl]
      exact .of_level (fun _ => rfl) step fun _ => .refl _ _

theorem tokensWithin_cons (scope : Scope) (fuel : Nat) (u : CodeUnit) (rest : Text) :
    tokensWithin scope (fuel + 1) (u :: rest) = (takeToken scope (u :: rest)).bind fun taken =>
      (tokensWithin scope fuel taken.2).map (taken.1 :: ·) := by
  simp only [tokensWithin, Option.bind_eq_bind, Option.map_eq_bind]
  rfl

theorem tokensWithin_cons_iff {scope : Scope} {fuel : Nat} {u : CodeUnit} {rest : Text}
    {tokens : List Token} : tokensWithin scope (fuel + 1) (u :: rest) = some tokens ↔
      ∃ token more others, takeToken scope (u :: rest) = some (token, more) ∧
        tokensWithin scope fuel more = some others ∧ tokens = token :: others := by
  rw [tokensWithin_cons, Option.bind_eq_some_iff]
  constructor
  · rintro ⟨⟨token, more⟩, first, rest⟩
    obtain ⟨others, later, same⟩ := Option.map_eq_some_iff.mp rest
    exact ⟨token, more, others, first, later, same.symm⟩
  · rintro ⟨token, more, others, first, later, rfl⟩
    exact ⟨(token, more), first, by rw [later, Option.map_some]⟩

/-- The bearing behind a text is outside, at the depth behind its tokens. -/
theorem scan?_tokens {scope : Scope} {fuel : Nat} {t : Text} {tokens : List Token}
    (taken : tokensWithin scope fuel t = some tokens) (depth : Nat) :
    scan? (free depth) t = (tokens.foldlM Token.depth? depth).map free := by
  induction fuel generalizing t tokens depth with
  | zero =>
    cases t with
    | nil =>
      cases taken
      rfl
    | cons u rest => cases taken
  | succ fuel ih =>
    cases t with
    | nil =>
      cases taken
      rfl
    | cons u rest =>
      obtain ⟨token, more, others, first, later, rfl⟩ := tokensWithin_cons_iff.mp taken
      rw [(takeToken_cut first).scan depth, List.foldlM_cons]
      cases token.depth? depth with
      | none => rfl
      | some next => exact ih later next

theorem tokensWithin_enough {scope : Scope} {fuel : Nat} {t : Text} (enough : t.length ≤ fuel) :
    tokensWithin scope fuel t = tokens? scope t := by
  have same (fuel other : Nat) (t : Text) (one : t.length ≤ fuel) (two : t.length ≤ other) :
      tokensWithin scope fuel t = tokensWithin scope other t := by
    induction fuel generalizing other t with
    | zero =>
      cases List.length_eq_zero_iff.mp (Nat.le_zero.mp one)
      cases other <;> rfl
    | succ fuel ih =>
      cases t with
      | nil => cases other <;> rfl
      | cons u rest =>
        obtain ⟨other, rfl⟩ : ∃ n, other = n + 1 := ⟨other - 1, by simp at two; omega⟩
        rw [tokensWithin_cons, tokensWithin_cons]
        cases first : takeToken scope (u :: rest) with
        | none => rfl
        | some pair =>
          have shorter := (takeToken_cut first).shorter
          rw [Option.bind_some, Option.bind_some, ih other pair.2 (by omega) (by omega)]
  exact same fuel t.length t enough (Nat.le_refl _)

/-! The groups that are open while a pattern is read -/

theorem step?_depth {p q : Progress} {token : Token} (step : p.step? token = some q) :
    token.depth? p.outer.length = some q.outer.length := by
  cases token with
  | part tree =>
    cases step
    rfl
  | place tree =>
    cases step
    rfl
  | repeated count =>
    obtain ⟨frame, _, same⟩ := Option.map_eq_some_iff.mp step
    cases same
    rfl
  | bar =>
    cases step
    rfl
  | opens kind =>
    cases step
    rfl
  | closes =>
    rw [Progress.step?] at step
    split at step
    · cases step
    · rename_i enclosing outer opened
      cases step
      rw [opened]
      rfl

theorem foldlM_depth {tokens : List Token} {p q : Progress}
    (run : tokens.foldlM Progress.step? p = some q) :
    tokens.foldlM Token.depth? p.outer.length = some q.outer.length := by
  induction tokens generalizing p with
  | nil =>
    cases run
    rfl
  | cons token rest ih =>
    obtain ⟨next, step, later⟩ := Option.bind_eq_some_iff.mp run
    rw [List.foldlM_cons, step?_depth step]
    exact ih later

def Progress.within (p : Progress) (frames : List Frame) : Progress :=
  { p with outer := p.outer ++ frames }

/-- Inside open groups a token is read alike, unless it closes one of them. -/
theorem step?_within {p : Progress} {token : Token}
    (own : (token.depth? p.outer.length).isSome = true) (frames : List Frame) :
    (p.within frames).step? token = (p.step? token).map (·.within frames) := by
  cases token with
  | part tree => rfl
  | place tree => rfl
  | repeated count =>
    simp only [Progress.step?, Progress.within, Option.map_map]
    rfl
  | bar => rfl
  | opens kind => rfl
  | closes =>
    obtain ⟨frame, outer, groups⟩ := p
    cases outer with
    | nil => cases own
    | cons enclosing outer => rfl

theorem foldlM_within {tokens : List Token} {p : Progress}
    (own : (tokens.foldlM Token.depth? p.outer.length).isSome = true) (frames : List Frame) :
    tokens.foldlM Progress.step? (p.within frames) =
      (tokens.foldlM Progress.step? p).map (·.within frames) := by
  induction tokens generalizing p with
  | nil => rfl
  | cons token rest ih =>
    rw [List.foldlM_cons] at own
    have first : (token.depth? p.outer.length).isSome = true := by
      cases depth : token.depth? p.outer.length with
      | none =>
        rw [depth] at own
        cases own
      | some next => rfl
    rw [List.foldlM_cons, List.foldlM_cons, step?_within first]
    cases step : p.step? token with
    | none => rfl
    | some next =>
      rw [step?_depth step] at own
      exact ih own

end VirtualInstrument.Pattern
