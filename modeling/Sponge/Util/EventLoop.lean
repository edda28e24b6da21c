import Mathlib.Data.List.Basic
import Sponge.Util.FileDescriptor

/-!
# The event loop

The rules of an event loop are closures over variables that they share.  Here
these variables are the state `σ`, and the rules have names in `ι`: the loop
keeps a list of names, and `rule` tells what a name stands for.  What the
kernel answers to the system calls of a callback is an argument of type `ε`.

A call of `wait_next_event` walks over the rules twice, before and after it
polls.  The second walk pairs the rules with the results of `poll` by an index
that advances with every rule, also with those that it erases.
-/

namespace Sponge

namespace EventLoop

/-- Interest in reading or in writing. -/
inductive Direction where
  | pollIn
  | pollOut
deriving DecidableEq

/-- The bits that `poll` reports for one descriptor. -/
structure Revents where
  pollIn : Bool := false
  pollOut : Bool := false
  pollErr : Bool := false
  pollNval : Bool := false
  pollHup : Bool := false

/-- The bitwise conjunction of the reported and the requested events. -/
def Revents.ready (revents : Revents) : Option Direction → Bool
  | none => false
  | some .pollIn => revents.pollIn
  | some .pollOut => revents.pollOut

/-- The outcome of `poll`.  An error other than an interruption is caught and
leaves no event reported. -/
inductive Poll where
  | timeout
  | interrupted
  | failed
  | ready (revents : ℕ → Revents)

def Poll.revents : Poll → ℕ → Revents
  | .ready revents, idx => revents idx
  | _, _ => {}

/-- Some descriptor is reported as hung up. -/
def Poll.HangsUp (poll : Poll) : Prop := ∃ idx, (poll.revents idx).pollHup = true

inductive Result where
  | success
  | timeout
  | exit
deriving DecidableEq

/-- A condition and the callbacks for it. -/
structure Rule (σ ε : Type*) where
  fd : σ → FileDescriptor
  direction : Direction
  callback : ε → σ → Except String Unit × σ
  interest : σ → Bool
  cancel : σ → σ

variable {σ ε ι : Type*}

namespace Rule

/-- How often the descriptor has been read or written. -/
def serviceCount (rule : Rule σ ε) (s : σ) : UInt32 :=
  match rule.direction with
  | .pollIn => (rule.fd s).readCount
  | .pollOut => (rule.fd s).writeCount

/-- Nothing more will happen on the descriptor of the rule. -/
def Over (rule : Rule σ ε) (s : σ) : Prop :=
  (rule.direction = .pollIn ∧ (rule.fd s).eof = true) ∨
    (rule.fd s).closed = true

instance overDecidable (rule : Rule σ ε) (s : σ) : Decidable (rule.Over s) :=
  inferInstanceAs (Decidable (_ ∨ _))

/-- The callback, and the check that it has done something. -/
def serve (rule : Rule σ ε) (answer : ε) (s : σ) : Except String Unit × σ :=
  let countBefore := rule.serviceCount s
  match rule.callback answer s with
  | (.error e, s') => (.error e, s')
  | (.ok (), s') =>
      if countBefore = rule.serviceCount s' ∧ rule.interest s' then
        (.error
          "EventLoop: busy wait detected: callback did not read/write fd and is still interested",
          s')
      else (.ok (), s')

end Rule

variable (rule : ι → Rule σ ε)

/-- The first walk: which rules remain, and what each of them asks for. -/
def setUp : List ι → σ → List ι × List (Option Direction) × σ
  | [], s => ([], [], s)
  | i :: rules, s =>
      if (rule i).Over s then setUp rules ((rule i).cancel s)
      else
        let events :=
          if (rule i).interest s then some (rule i).direction else none
        let later := setUp rules s
        (i :: later.1, events :: later.2.1, later.2.2)

/-- The second walk, from the rule with the result at the index `idx`. -/
def dispatch (pollfds : List (Option Direction)) (revents : ℕ → Revents)
    (answers : ℕ → ε) :
    ℕ → List ι → σ → Except String Unit × List ι × σ
  | _, [], s => (.ok (), [], s)
  | idx, i :: rules, s =>
      match pollfds[idx]? with
      | none => (.error "index out of range", i :: rules, s)
      | some events =>
          if (revents idx).pollErr || (revents idx).pollNval then
            (.error "EventLoop: error on polled file descriptor",
              i :: rules, s)
          else if (revents idx).pollHup && events.isSome &&
              !(revents idx).ready events then
            dispatch pollfds revents answers (idx + 1) rules
              ((rule i).cancel s)
          else
            let served :=
              if (revents idx).ready events then
                (rule i).serve (answers idx) s
              else (.ok (), s)
            match served with
            | (.error e, s') => (.error e, i :: rules, s')
            | (.ok (), s') =>
                let later :=
                  dispatch pollfds revents answers (idx + 1) rules s'
                (later.1, i :: later.2.1, later.2.2)

/-- Wait until some rule can be served, and serve all that can. -/
def waitNextEvent (rules : List ι) (s : σ) (poll : Poll)
    (answers : ℕ → ε) : Except String Result × List ι × σ :=
  let prepared := setUp rule rules s
  let rules := prepared.1
  let pollfds := prepared.2.1
  let s := prepared.2.2
  if pollfds.all (· == none) then (.ok .exit, rules, s)
  else
    match poll with
    | .timeout => (.ok .timeout, rules, s)
    | .interrupted => (.ok .exit, rules, s)
    | .failed | .ready _ =>
        let passed := dispatch rule pollfds poll.revents answers 0 rules s
        (passed.1.map fun _ => .success, passed.2)

/-! ## The rule for invariants -/

/-- What a call leaves when it returns, and when it throws. -/
def Leaves {α : Type*} (E : String → σ → Prop) (Q : σ → Prop)
    (outcome : Except String α × σ) : Prop :=
  match outcome.1 with
  | .ok _ => Q outcome.2
  | .error e => E e outcome.2

/-- The callback has read or written, or has lost interest. -/
def Rule.Serves (rule : Rule σ ε) (s s' : σ) : Prop :=
  rule.serviceCount s ≠ rule.serviceCount s' ∨ rule.interest s' = false

/-- The rule `i` has been erased from the list `live`, which is now
`live'`. -/
def Erased (i : ι) (live live' : List ι) : Prop :=
  i ∉ live' ∧ ∀ j ≠ i, j ∈ live' ↔ j ∈ live

/-- Everything that a call may do keeps `I`, which may depend on the rules
that are left; `hup` tells whether a rule may be cancelled because of a
hang-up, and `ok` are the answers that can be expected.  No rule brings the
descriptor of another rule to its end, and a callback that throws leaves
`E`. -/
structure Keeps (hup : Prop) (ok : ε → Prop) (E : String → σ → Prop)
    (I : List ι → σ → Prop) : Prop where
  cancel : ∀ {live live' i s}, Erased i live live' → I live s →
    (rule i).Over s ∨ hup → I live' ((rule i).cancel s)
  apart : ∀ {i j s}, i ≠ j → (rule i).Over ((rule j).cancel s) →
    (rule i).Over s
  callback : ∀ {live i s answer}, ok answer → i ∈ live → I live s →
    ¬ (rule i).Over s → Leaves E (fun s' => I live s' ∧ (rule i).Serves s s' ∧
      ∀ j ≠ i, (rule j).Over s' → (rule j).Over s)
      ((rule i).callback answer s)
  polled : ∀ {rules s}, I rules s →
    E "EventLoop: error on polled file descriptor" s

section Keeps

variable {rule : ι → Rule σ ε} {hup : Prop} {ok : ε → Prop}
  {E : String → σ → Prop} {I : List ι → σ → Prop}

/-- A callback that serves is never taken for a busy wait. -/
theorem Keeps.serve
    (K : Keeps rule hup ok E I) {live : List ι} {i : ι} {s : σ} {answer : ε}
    (hanswer : ok answer) (hi : i ∈ live) (h : I live s) (hover : ¬ (rule i).Over s) :
    Leaves E (fun s' => I live s' ∧
      ∀ j ≠ i, (rule j).Over s' → (rule j).Over s)
      ((rule i).serve answer s) := by
  have hcalled := K.callback hanswer hi h hover
  rw [Rule.serve]
  generalize (rule i).callback answer s = called at hcalled ⊢
  rcases called with ⟨_ | _, s'⟩
  · exact hcalled
  · obtain ⟨hkept, hserves, hapart⟩ := hcalled
    have hbusy : ¬ ((rule i).serviceCount s = (rule i).serviceCount s' ∧
        (rule i).interest s' = true) := by
      rintro ⟨hcount, hinterest⟩
      rcases hserves with hne | hlost
      · exact hne hcount
      · exact absurd (hinterest.symm.trans hlost) (by decide)
    simp only [if_neg hbusy]
    exact ⟨hkept, hapart⟩

theorem erased_of_nodup
    {done rest : List ι} {i : ι} (hnodup : (done ++ i :: rest).Nodup) :
    Erased i (done ++ i :: rest) (done ++ rest) := by
  obtain ⟨-, hrest, hapart⟩ := List.nodup_append.mp hnodup
  refine ⟨fun hmem => ?_, fun j hj => ?_⟩
  · rcases List.mem_append.mp hmem with hdone | hlater
    · exact hapart i hdone i List.mem_cons_self rfl
    · exact (List.nodup_cons.mp hrest).1 hlater
  · simp [hj]

theorem nodup_of_erased
    {done rest : List ι} {i : ι} (hnodup : (done ++ i :: rest).Nodup) :
    (done ++ rest).Nodup :=
  hnodup.sublist
    ((List.Sublist.refl done).append (List.sublist_cons_self i rest))

theorem setUp_sublist (rules : List ι) (s : σ) :
    (setUp rule rules s).1.Sublist rules := by
  induction rules generalizing s with
  | nil => exact List.Sublist.refl []
  | cons i rules ih =>
      rw [setUp]
      split
      · exact (ih _).cons i
      · exact (ih s).cons_cons i

theorem length_setUp (rules : List ι) (s : σ) :
    (setUp rule rules s).2.1.length = (setUp rule rules s).1.length := by
  induction rules generalizing s with
  | nil => rfl
  | cons i rules ih =>
      rw [setUp]
      split
      · exact ih _
      · exact congrArg (· + 1) (ih s)

theorem setUp_invariant
    (K : Keeps rule hup ok E I) (done : List ι) {rules : List ι} {s : σ}
    (hnodup : (done ++ rules).Nodup) (h : I (done ++ rules) s) :
    I (done ++ (setUp rule rules s).1) (setUp rule rules s).2.2 := by
  induction rules generalizing done s with
  | nil => exact h
  | cons i rules ih =>
      rw [setUp]
      split
      next hover =>
        exact ih done (nodup_of_erased hnodup)
          (K.cancel (erased_of_nodup hnodup) h (Or.inl hover))
      · -- the rule stays, and joins those already visited
        rw [List.append_cons] at hnodup h ⊢
        exact ih (done ++ [i]) hnodup h

theorem setUp_apart
    (K : Keeps rule hup ok E I) {rules : List ι} {i : ι} {s : σ}
    (hi : i ∉ rules) (hover : ¬ (rule i).Over s) :
    ¬ (rule i).Over (setUp rule rules s).2.2 := by
  induction rules generalizing s with
  | nil => exact hover
  | cons j rules ih =>
      have hj : i ≠ j := List.ne_of_not_mem_cons hi
      replace hi : i ∉ rules := List.not_mem_of_not_mem_cons hi
      rw [setUp]
      split
      · exact ih hi fun hcancelled => hover (K.apart hj hcancelled)
      · exact ih hi hover

/-- The rules that the first walk leaves are not over. -/
theorem not_over_setUp
    (K : Keeps rule hup ok E I) {rules : List ι} (hnodup : rules.Nodup) (s : σ) :
    ∀ i ∈ (setUp rule rules s).1,
      ¬ (rule i).Over (setUp rule rules s).2.2 := by
  induction rules generalizing s with
  | nil => exact fun i hi => absurd hi List.not_mem_nil
  | cons j rules ih =>
      obtain ⟨hj, hnodup⟩ := List.nodup_cons.mp hnodup
      rw [setUp]
      split
      · exact ih hnodup _
      next hover =>
        intro i hi
        rcases List.mem_cons.mp hi with rfl | hi
        · exact setUp_apart K hj hover
        · exact ih hnodup s i hi

/-- As long as there is a result for every rule, the index meets the result of
the rule that is visited. -/
theorem dispatch_invariant
    (K : Keeps rule hup ok E I)
    {pollfds : List (Option Direction)} {revents : ℕ → Revents}
    (hhup : ∀ idx, (revents idx).pollHup = true → hup)
    {answers : ℕ → ε} (hanswers : ∀ idx, ok (answers idx))
    (done : List ι) {rules : List ι} {idx : ℕ} {s : σ}
    (hlength : pollfds.length = idx + rules.length)
    (hnodup : (done ++ rules).Nodup)
    (hover : ∀ i ∈ rules, ¬ (rule i).Over s) (h : I (done ++ rules) s) :
    let passed := dispatch rule pollfds revents answers idx rules s
    passed.2.1.Sublist rules ∧
      Leaves E (I (done ++ passed.2.1)) (passed.1, passed.2.2) := by
  induction rules generalizing done idx s with
  | nil => exact ⟨List.Sublist.refl [], h⟩
  | cons i rules ih =>
      rw [List.length_cons] at hlength
      have hidx : idx < pollfds.length := by omega
      have hnext : pollfds.length = idx + 1 + rules.length := by omega
      have hmem : i ∈ done ++ i :: rules := by simp
      have herased := erased_of_nodup hnodup
      have hapart : ∀ j ∈ rules, j ≠ i ∧ ¬ (rule j).Over s := fun j hj =>
        ⟨fun heq => herased.1 (heq ▸ List.mem_append_right done hj),
          hover j (List.mem_cons_of_mem i hj)⟩
      rw [dispatch, List.getElem?_eq_getElem hidx]
      dsimp only
      split
      · exact ⟨List.Sublist.refl _, K.polled h⟩
      split
      next hcancel =>
        have hhup' : (revents idx).pollHup = true := by
          rw [Bool.and_eq_true, Bool.and_eq_true] at hcancel
          exact hcancel.1.1
        obtain ⟨hsublist, hlater⟩ := ih done hnext (nodup_of_erased hnodup)
          (fun j hj hcancelled =>
            (hapart j hj).2 (K.apart (hapart j hj).1 hcancelled))
          (K.cancel herased h (Or.inr (hhup idx hhup')))
        exact ⟨hsublist.cons i, hlater⟩
      · -- the rule is served if it can be, and joins those already visited
        have hserve := K.serve (hanswers idx) hmem h
          (hover i List.mem_cons_self)
        generalize hserved : (if (revents idx).ready pollfds[idx] then
          (rule i).serve (answers idx) s else (.ok (), s)) = served
        have hkept : Leaves E (fun s' => I (done ++ i :: rules) s' ∧
            ∀ j ≠ i, (rule j).Over s' → (rule j).Over s) served := by
          rw [← hserved]
          split
          · exact hserve
          · exact ⟨h, fun _ _ hj => hj⟩
        rcases served with ⟨e | _, s'⟩
        · exact ⟨List.Sublist.refl _, hkept⟩
        · obtain ⟨hvisited, hothers⟩ := hkept
          rw [List.append_cons] at hnodup hvisited
          obtain ⟨hsublist, hlater⟩ := ih (done ++ [i]) hnext hnodup
            (fun j hj hnow =>
              (hapart j hj).2 (hothers j (hapart j hj).1 hnow)) hvisited
          rw [List.append_assoc] at hlater
          exact ⟨hsublist.cons_cons i, hlater⟩

/-- Whatever the kernel reports, a call of `wait_next_event` keeps what its
callbacks keep, and throws only what they throw or if there is an error on a
descriptor: every rule meets the result of its own descriptor, and no callback
is taken for a busy wait. -/
theorem waitNextEvent_invariant
    {poll : Poll} (K : Keeps rule poll.HangsUp ok E I) {rules : List ι} {s : σ}
    (answers : ℕ → ε) (hanswers : ∀ idx, ok (answers idx))
    (hnodup : rules.Nodup) (h : I rules s) :
    let waited := waitNextEvent rule rules s poll answers
    waited.2.1.Sublist rules ∧
      Leaves E (I waited.2.1) (waited.1, waited.2.2) := by
  have hset := setUp_invariant K [] hnodup h
  have hsublist : (setUp rule rules s).1.Sublist rules :=
    setUp_sublist rules s
  have hlength : (setUp rule rules s).2.1.length =
      0 + (setUp rule rules s).1.length := by
    rw [length_setUp, Nat.zero_add]
  have hhup : ∀ idx, (poll.revents idx).pollHup = true → poll.HangsUp :=
    fun idx hidx => ⟨idx, hidx⟩
  obtain ⟨hshorter, hpassed⟩ :=
    dispatch_invariant K hhup hanswers [] hlength (hnodup.sublist hsublist)
      (not_over_setUp K hnodup s) hset
  unfold waitNextEvent
  dsimp only
  split
  · exact ⟨hsublist, hset⟩
  · cases poll with
    | timeout => exact ⟨hsublist, hset⟩
    | interrupted => exact ⟨hsublist, hset⟩
    | _ =>
        refine ⟨hshorter.trans hsublist, ?_⟩
        generalize dispatch rule _ _ answers 0 _ _ = passed at hpassed ⊢
        rcases passed with ⟨_ | _, _⟩
        · exact hpassed
        · exact hpassed

end Keeps

/-! ## When the loop comes to an end -/

/-- The rule stays in the loop and does not want to be served. -/
def Idle (i : ι) (s : σ) : Prop :=
  ¬ (rule i).Over s ∧ (rule i).interest s = false

section Exit

variable {rule : ι → Rule σ ε}

/-- If cancelling a rule wakes up no rule before it, a first walk that asks
for nothing leaves all rules idle. -/
theorem idle_of_setUp
    {rules : List ι} {s : σ}
    (hquiet : rules.Pairwise fun i j =>
      ∀ s, Idle rule i s → Idle rule i ((rule j).cancel s))
    (hnone : (setUp rule rules s).2.1.all (· == none) = true) :
    (∀ i ∈ (setUp rule rules s).1, Idle rule i (setUp rule rules s).2.2) ∧
      ∀ i, (∀ j ∈ rules, ∀ s, Idle rule i s →
        Idle rule i ((rule j).cancel s)) →
          Idle rule i s → Idle rule i (setUp rule rules s).2.2 := by
  induction rules generalizing s with
  | nil => exact ⟨fun i hi => absurd hi List.not_mem_nil, fun _ _ h => h⟩
  | cons j rules ih =>
      obtain ⟨hhead, htail⟩ := List.pairwise_cons.mp hquiet
      rw [setUp] at hnone ⊢
      split at hnone
      next hover =>
        rw [if_pos hover]
        obtain ⟨hidle, hstays⟩ := ih htail hnone
        refine ⟨hidle, fun i hi h => ?_⟩
        exact hstays i (fun k hk => hi k (List.mem_cons_of_mem j hk))
          (hi j List.mem_cons_self s h)
      next hover =>
        rw [if_neg hover]
        rw [List.all_cons, Bool.and_eq_true] at hnone
        obtain ⟨hidle, hstays⟩ := ih htail hnone.2
        have hj : Idle rule j s := by
          refine ⟨hover, ?_⟩
          by_contra hinterest
          rw [Bool.not_eq_false] at hinterest
          simp [hinterest] at hnone
        refine ⟨fun i hi => ?_, fun i hi h => ?_⟩
        · rcases List.mem_cons.mp hi with rfl | hi
          · exact hstays i hhead hj
          · exact hidle i hi
        · exact hstays i (fun k hk => hi k (List.mem_cons_of_mem j hk)) h

/-- The loop ends because of a signal or because no rule that is left wants to
be served. -/
theorem waitNextEvent_exit
    {rules rules' : List ι} {s s' : σ} {poll : Poll} {answers : ℕ → ε}
    (hquiet : rules.Pairwise fun i j =>
      ∀ s, Idle rule i s → Idle rule i ((rule j).cancel s))
    (hexit : waitNextEvent rule rules s poll answers =
      (.ok .exit, rules', s')) :
    poll = .interrupted ∨ ∀ i ∈ rules', Idle rule i s' := by
  unfold waitNextEvent at hexit
  dsimp only at hexit
  split at hexit
  next hnone =>
    obtain ⟨-, hleft⟩ := Prod.mk.inj hexit
    obtain ⟨hrules, hs⟩ := Prod.mk.inj hleft
    rw [← hrules, ← hs]
    exact Or.inr (idle_of_setUp hquiet hnone).1
  · cases poll with
    | timeout => exact absurd (congrArg Prod.fst hexit) (by simp)
    | interrupted => exact Or.inl rfl
    | _ =>
        have hresult := congrArg Prod.fst hexit
        generalize dispatch rule _ _ answers 0 _ _ = passed at hresult
        rcases passed with ⟨_ | _, _⟩
        · exact absurd hresult (by simp [Except.map])
        · exact absurd hresult (by simp [Except.map])

end Exit

end EventLoop

end Sponge
