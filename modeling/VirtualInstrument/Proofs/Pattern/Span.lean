import VirtualInstrument.Pattern.Matcher
/- Where a match lies in a text. The search goes through the places of the text and stops at the
   first one from which there is a way through the pattern; the match is what lies between that
   place and the one where the way ends. -/
namespace VirtualInstrument.Pattern

def spanFrom (pattern : Pattern) (before : Text) : Text → Option (Nat × Nat)
  | [] => (pattern.tree.run true ⟨before, [], List.replicate pattern.groups none⟩ some).map
    fun stop => (before.length, stop.before.length)
  | u :: rest =>
    match pattern.tree.run true ⟨before, u :: rest, List.replicate pattern.groups none⟩ some with
    | some stop => some (before.length, stop.before.length)
    | none => pattern.spanFrom (u :: before) rest

def span? (pattern : Pattern) (t : Text) : Option (Nat × Nat) := pattern.spanFrom [] t

theorem span?_isSome (pattern : Pattern) (t : Text) :
    (pattern.span? t).isSome = (pattern.captures? t).isSome := by
  have along (before t : Text) :
      (pattern.spanFrom before t).isSome = (pattern.searchFrom before t).isSome := by
    induction t generalizing before with
    | nil =>
      rw [spanFrom, searchFrom]
      exact Option.isSome_map
    | cons u rest ih =>
      rw [spanFrom, searchFrom]
      cases pattern.tree.run true ⟨before, u :: rest, _⟩ some with
      | none => exact ih (u :: before)
      | some stop => rfl
  rw [captures?, Option.isSome_map]
  exact along [] t

def Place.whole (p : Place) : Text := p.before.reverse ++ p.after

theorem takeUnit_follows {ahead : Bool} {accepts : CodeUnit → Bool} {p q : Place} {follow : Follow}
    (run : takeUnit ahead accepts p follow = some q) :
    ∃ r : Place, r.whole = p.whole ∧ follow r = some q := by
  unfold takeUnit at run
  cases ahead with
  | true =>
    simp only [if_true] at run
    split at run
    · cases run
    · rename_i u rest after
      split at run
      · exact ⟨_, by simp [Place.whole, after], run⟩
      · cases run
  | false =>
    simp only [Bool.false_eq_true, if_false] at run
    split at run
    · cases run
    · rename_i u rest before
      split at run
      · exact ⟨_, by simp [Place.whole, before], run⟩
      · cases run

theorem takeText_follows {ahead : Bool} {t : Text} {p q : Place} {follow : Follow}
    (run : takeText ahead t p follow = some q) :
    ∃ r : Place, r.whole = p.whole ∧ follow r = some q := by
  induction t generalizing p with
  | nil => exact ⟨p, rfl, run⟩
  | cons u rest ih =>
    obtain ⟨r, same, later⟩ := takeUnit_follows run
    obtain ⟨s, alike, ends⟩ := ih later
    exact ⟨s, alike.trans same, ends⟩

theorem firstOf_cases {one : Option Place} {other : Unit → Option Place} {q : Place}
    (found : firstOf one other = some q) : one = some q ∨ other () = some q := by
  unfold firstOf at found
  split at found
  · exact .inl found
  · exact .inr found

theorem runRounds_follows {body : Place → Follow → Option Place} {greedy : Bool}
    (through : ∀ p follow q, body p follow = some q →
      ∃ r : Place, r.whole = p.whole ∧ follow r = some q)
    {fuel least : Nat} {most : Option Nat} {p q : Place} {follow : Follow}
    (run : runRounds body greedy fuel least most p follow = some q) :
    ∃ r : Place, r.whole = p.whole ∧ follow r = some q := by
  induction fuel generalizing least most p with
  | zero => cases run
  | succ fuel ih =>
    rw [runRounds] at run
    split at run
    · exact ⟨p, rfl, run⟩
    · -- a round ends at a place from which the other rounds go on
      have round {onward : Follow} (begun : body p onward = some q)
          (later : ∀ r, onward r = some q → ∃ s : Place, s.whole = r.whole ∧ follow s = some q) :
          ∃ r : Place, r.whole = p.whole ∧ follow r = some q := by
        obtain ⟨r, same, ends⟩ := through p _ q begun
        obtain ⟨s, alike, last⟩ := later r ends
        exact ⟨s, alike.trans same, last⟩
      have others (r : Place) (next : (if least = 0 ∧ r.after.length = p.after.length then none
          else runRounds body greedy fuel (least - 1) (most.map (· - 1)) r follow) = some q) :
          ∃ s : Place, s.whole = r.whole ∧ follow s = some q := ih (Option.ite_none_left_eq_some.mp next).2
      dsimp only at run
      split at run
      · exact round run others
      · split at run
        · rcases firstOf_cases run with more | stop
          · exact round more others
          · exact ⟨p, rfl, stop⟩
        · rcases firstOf_cases run with stop | more
          · exact ⟨p, rfl, stop⟩
          · exact round more others

/-- A way through a tree stays in the text, and ends where what has to follow is found. -/
theorem run_follows {tree : Tree} {ahead : Bool} {p q : Place} {follow : Follow}
    (run : tree.run ahead p follow = some q) :
    ∃ r : Place, r.whole = p.whole ∧ follow r = some q := by
  induction tree generalizing ahead p q follow with
  | empty => exact ⟨p, rfl, run⟩
  | unit u => exact takeUnit_follows run
  | anyUnit => exact takeUnit_follows run
  | oneOf units => exact takeUnit_follows run
  | start => exact ⟨p, rfl, (Option.ite_none_right_eq_some.mp run).2⟩
  | stop => exact ⟨p, rfl, (Option.ite_none_right_eq_some.mp run).2⟩
  | boundary negated => exact ⟨p, rfl, (Option.ite_none_right_eq_some.mp run).2⟩
  | sequence first second one two =>
    rw [Tree.run] at run
    split at run
    · obtain ⟨r, same, later⟩ := one run
      obtain ⟨s, alike, ends⟩ := two later
      exact ⟨s, alike.trans same, ends⟩
    · obtain ⟨r, same, later⟩ := two run
      obtain ⟨s, alike, ends⟩ := one later
      exact ⟨s, alike.trans same, ends⟩
  | choice first second one two =>
    rcases firstOf_cases run with here | there
    · exact one here
    · exact two there
  | group index body ih =>
    obtain ⟨r, same, ends⟩ := ih run
    exact ⟨r.capture index (p.upTo r), same, ends⟩
  | again index =>
    rw [Tree.run] at run
    split at run
    · exact takeText_follows run
    · exact ⟨p, rfl, run⟩
  | look lookAhead negated body _ =>
    rw [Tree.run] at run
    split at run
    · rename_i r _
      split at run
      · cases run
      · exact ⟨{ p with captures := r.captures }, rfl, run⟩
    · split at run
      · exact ⟨p, rfl, run⟩
      · cases run
  | rounds count firstGroup nextGroup body ih =>
    refine runRounds_follows ?_ run
    intro p follow q begun
    obtain ⟨r, same, ends⟩ := ih begun
    exact ⟨r, same, ends⟩

def enclosed (pattern : Pattern) : Pattern :=
  ⟨.sequence .start (.sequence pattern.tree .stop), pattern.groups⟩

theorem run_enclosed_behind (pattern : Pattern) (u : CodeUnit) (before t : Text)
    (captures : List (Option Text)) :
    pattern.enclosed.tree.run true ⟨u :: before, t, captures⟩ some = none := by
  simp [enclosed, Tree.run]

/-- A match of such a tree begins at the first unit and ends at the last. -/
theorem span?_enclosed (pattern : Pattern) (t : Text) :
    pattern.enclosed.span? t = (pattern.enclosed.captures? t).map fun _ => (0, t.length) := by
  have behind (t : Text) (u : CodeUnit) (before : Text) :
      pattern.enclosed.spanFrom (u :: before) t = none ∧
        pattern.enclosed.searchFrom (u :: before) t = none := by
    induction t generalizing u before with
    | nil => simp [spanFrom, searchFrom, run_enclosed_behind]
    | cons v rest ih => simp [spanFrom, searchFrom, run_enclosed_behind, ih]
  have ends {q : Place} (run : pattern.enclosed.tree.run true
      ⟨[], t, List.replicate pattern.groups none⟩ some = some q) : q.before.length = t.length := by
    have inner : pattern.tree.run true ⟨[], t, List.replicate pattern.groups none⟩
        (fun r => if r.after.isEmpty then some r else none) = some q := run
    obtain ⟨r, same, later⟩ := run_follows inner
    obtain ⟨last, stopped⟩ := Option.ite_none_right_eq_some.mp later
    cases stopped
    rw [Place.whole, List.isEmpty_iff.mp last, List.append_nil] at same
    have length := congrArg List.length same
    simpa [Place.whole] using length
  have found (run : Option Place) (same : pattern.enclosed.tree.run true
      ⟨[], t, List.replicate pattern.groups none⟩ some = run) :
      run.map (fun stop => (0, stop.before.length)) = run.map fun _ => (0, t.length) := by
    cases run with
    | none => rfl
    | some q => rw [Option.map_some, Option.map_some, ends same]
  have whole := found _ rfl
  cases t with
  | nil =>
    rw [captures?, Option.map_map]
    exact whole
  | cons u rest =>
    rw [captures?, Option.map_map, span?, spanFrom, searchFrom, (behind rest u []).1,
      (behind rest u []).2]
    cases run : pattern.enclosed.tree.run true ⟨[], u :: rest, _⟩ some with
    | none => rfl
    | some q => simp [ends run]

end VirtualInstrument.Pattern
