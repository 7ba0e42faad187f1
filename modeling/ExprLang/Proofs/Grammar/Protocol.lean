import ExprLang.Grammar.Session
import ExprLang.Proofs.Grammar.Machine

/-!
# How parsers use a shared source

Parsers that share a stream of items with each other and with outsiders take items off it in turn.
All that a session does to a stream is to ask it some number of times, so the number of questions
asked so far tells where the stream stands (`Session.IsOn`), and item number `n` is the answer to
question number `n`, whoever asks it.

A parser asks for one item when it is made.  Its first run goes on from there: it asks for one more
item whenever it has taken a token, and stops at the first item that it does not take
(`exists_reading`).  This is the end, a failure, or a token that does not fit, and its outcome tells
which (`Concludes`).

The main statement is `Session.protocol`: in every session, making a parser asks once, its first run
reads exactly up to such an item and depends on nothing but the items that the parser has been
given, and every later run asks nothing and repeats the outcome.
-/

namespace ExprLang

/-! ## Streams that have been asked -/

/-- What a source answers that has come to an item. -/
def Item.fetch : Item → Fetch Text
  | .token t => .ok (some t)
  | .failure message => .error message
  | .pause => .ok none

namespace TokenStream

/-- The answer of a stream to question number `n`, the first one being number zero.  Behind its
items there are no tokens left. -/
def answer (stream : TokenStream) (n : Nat) : Item := stream.items.getD n .pause

/-- The answers of a stream to `k` questions from number `n` on. -/
def answers (stream : TokenStream) (n k : Nat) : List Item := (List.range' n k).map stream.answer

/-- A stream that has been asked `n` questions. -/
def asked (stream : TokenStream) (n : Nat) : Counted TokenStream := ⟨⟨stream.items.drop n⟩, n⟩

/-- One more question is answered by the next item. -/
lemma next_asked (stream : TokenStream) (n : Nat) :
    TokenSource.next (stream.asked n) = ((stream.answer n).fetch, stream.asked (n + 1)) := by
  have hnext : (⟨stream.items.drop n⟩ : TokenStream).next =
      ((stream.answer n).fetch, ⟨stream.items.drop (n + 1)⟩) := by
    by_cases hn : n < stream.items.length
    · have hanswer : stream.answer n = stream.items[n] := by simp [answer, hn]
      rw [List.drop_eq_getElem_cons hn, hanswer]
      cases stream.items[n] <;> rfl
    · have hend : stream.items.length ≤ n := Nat.le_of_not_lt hn
      have hanswer : stream.answer n = .pause := by simp [answer, hend]
      rw [List.drop_of_length_le hend, List.drop_of_length_le (Nat.le_succ_of_le hend), hanswer]
      rfl
  have hfetch := congrArg Prod.fst hnext
  have hstream := congrArg Prod.snd hnext
  exact Prod.ext hfetch (congrArg (Counted.mk · (n + 1)) hstream)

/-- A stream with an item at its front answers with that item. -/
lemma next_cons (x : Item) (items : List Item) :
    TokenSource.next (⟨x :: items⟩ : TokenStream) = (x.fetch, ⟨items⟩) := by
  cases x <;> rfl

/-- One more answer comes before the answers to the later questions. -/
lemma answers_succ (stream : TokenStream) (n k : Nat) :
    stream.answers n (k + 1) = stream.answer n :: stream.answers (n + 1) k := by
  simp [answers, List.range'_succ]

end TokenStream

/-! ## What a parser reads -/

/-- Which outcome belongs to the last item that a parser has been given. -/
inductive Concludes : Item → Outcome Text → Prop
  /-- A token that does not fit is what the grammar error has found. -/
  | refused {t : Token} {e : GrammarError} (h : e.found = some t) :
      Concludes (.token t) (.error (.grammar e))
  /-- A failure is passed on as it is. -/
  | failed {message : Text} : Concludes (.failure message) (.error (.source message))
  /-- At the end there is a program. -/
  | finished {p : Program} : Concludes .pause (.ok p)
  /-- At the end there is a grammar error that has found no token. -/
  | unfinished {e : GrammarError} (h : e.found = none) : Concludes .pause (.error (.grammar e))

/-- From a state, with an item at hand and `n` questions asked, a parser asks `k` further questions.
-/
structure Reading (s : State) (x : Item) (stream : TokenStream) (n k : Nat) : Prop where
  /-- These questions are all that happens to the stream. -/
  source : (pull s x.fetch (stream.asked n)).2 = stream.asked (n + k)
  /-- All items but the last are tokens, and the last one tells the outcome. -/
  items : ∃ (ts : List Token) (last : Item), x :: stream.answers n k = ts.map .token ++ [last] ∧
    Concludes last (pull s x.fetch (stream.asked n)).1
  /-- The outcome is the one on a stream of no other items than these. -/
  outcome : (pull s x.fetch (stream.asked n)).1 =
    (pull s x.fetch (⟨stream.answers n k⟩ : TokenStream)).1

/-- Where a state finishes, its outcome belongs to the end. -/
lemma concludes_pause (s : State) : Concludes .pause (s.finish.mapError .grammar) := by
  cases hfinish : s.finish with
  | ok p => exact .finished
  | error e =>
    refine .unfinished ?_
    rcases State.error_of_finish hfinish with ⟨_, _, _, rfl⟩ | ⟨_, _, _, rfl⟩ <;> rfl

/-- An item that is not taken ends the reading. -/
lemma reading_zero {s : State} {x : Item} (hx : ∀ t s', x = .token t → s.feed t ≠ .ok s')
    (stream : TokenStream) (n : Nat) : Reading s x stream n 0 := by
  cases x with
  | failure message =>
    refine ⟨?_, ⟨[], .failure message, rfl, ?_⟩, ?_⟩ <;> simp only [Item.fetch, pull_error]
    · rfl
    · exact .failed
  | pause =>
    refine ⟨?_, ⟨[], .pause, rfl, ?_⟩, ?_⟩ <;> simp only [Item.fetch, pull_none]
    · rfl
    · exact concludes_pause s
  | token t =>
    cases hfeed : s.feed t with
    | ok s' => exact absurd hfeed (hx t s' rfl)
    | error e =>
      refine ⟨?_, ⟨[], .token t, rfl, ?_⟩, ?_⟩ <;> simp only [Item.fetch, pull_refused hfeed]
      · rfl
      · exact .refused (State.found_of_feed hfeed)

/-- A token that is taken is followed by the reading of the next item. -/
lemma Reading.succ {s s' : State} {t : Token} {stream : TokenStream} {n k : Nat}
    (hfeed : s.feed t = .ok s') (h : Reading s' (stream.answer n) stream (n + 1) k) :
    Reading s (.token t) stream n (k + 1) := by
  have hpull : pull s (Item.token t).fetch (stream.asked n) =
      pull s' (stream.answer n).fetch (stream.asked (n + 1)) := by
    rw [Item.fetch, pull_taken hfeed, TokenStream.next_asked]
  have hpull' : pull s (Item.token t).fetch (⟨stream.answers n (k + 1)⟩ : TokenStream) =
      pull s' (stream.answer n).fetch (⟨stream.answers (n + 1) k⟩ : TokenStream) := by
    rw [Item.fetch, pull_taken hfeed, stream.answers_succ, TokenStream.next_cons]
  obtain ⟨ts, last, hitems, hlast⟩ := h.items
  refine ⟨?_, ⟨t :: ts, last, ?_, ?_⟩, ?_⟩
  · rw [hpull, h.source, Nat.add_right_comm, Nat.add_assoc]
  · rw [stream.answers_succ, hitems, List.map_cons, List.cons_append]
  · rwa [hpull]
  · rw [hpull, hpull', h.outcome]

/-- Whatever a parser has at hand, it reads up to the first item that it does not take. -/
lemma exists_reading (s : State) (x : Item) (stream : TokenStream) (n : Nat) :
    ∃ k, Reading s x stream n k := by
  -- along the items that are left; behind them there is nothing to take
  induction hleft : stream.items.length - n using Nat.strongRecOn generalizing s x n with
  | ind m ih =>
    by_cases hx : ∃ t s', x = .token t ∧ s.feed t = .ok s'
    · obtain ⟨t, s', rfl, hfeed⟩ := hx
      have hnext : ∃ k, Reading s' (stream.answer n) stream (n + 1) k := by
        by_cases hn : n < stream.items.length
        · exact ih _ (by omega) s' (stream.answer n) (n + 1) rfl
        · have hpause : stream.answer n = .pause := by
            simp [TokenStream.answer, Nat.le_of_not_lt hn]
          rw [hpause]
          exact ⟨0, reading_zero (by simp) stream (n + 1)⟩
      obtain ⟨k, hk⟩ := hnext
      exact ⟨k + 1, hk.succ hfeed⟩
    · push Not at hx
      exact ⟨0, reading_zero hx stream n⟩

/-! ## Sessions -/

namespace Session

/-- The session after some actions. -/
def after {σ ε : Type} [TokenSource σ ε] (s : Session σ ε) (as : List Action) : Session σ ε :=
  as.foldl (fun s a => (s.perform a).2) s

/-- The number of questions that a session on a stream has asked after some actions. -/
def callsAfter (stream : TokenStream) (as : List Action) : Nat :=
  ((ofSource stream).after as).source.calls

/-- What an action brings to light in a session on a stream after some others. -/
def reply (stream : TokenStream) (as : List Action) (a : Action) : Reply Text :=
  (((ofSource stream).after as).perform a).1

/-- A session has asked its stream and done nothing else to it. -/
def IsOn (stream : TokenStream) (s : Session TokenStream Text) : Prop :=
  s.source = stream.asked s.source.calls

variable {stream : TokenStream} {s : Session TokenStream Text} {n : Nat}

/-- Making a parser takes one item, which the parser keeps. -/
lemma perform_create (h : s.source = stream.asked n) :
    s.perform .create =
      (.created, ⟨stream.asked (n + 1), some (.fresh (stream.answer n).fetch)⟩) := by
  simp only [perform, Parser.create, h, TokenStream.next_asked]

/-- An outsider takes one item. -/
lemma perform_next (h : s.source = stream.asked n) :
    s.perform .next =
      (.fetched (stream.answer n).fetch, ⟨stream.asked (n + 1), s.parser⟩) := by
  simp only [perform, h, TokenStream.next_asked]

/-- The first run of a parser pulls items out of the stream, behind the one that it keeps. -/
lemma perform_run_fresh {first : Fetch Text} (hparser : s.parser = some (.fresh first)) :
    s.perform .run =
      (.outcome (pull .start first s.source).1 false,
        ⟨(pull .start first s.source).2, some (.settled (pull .start first s.source).1)⟩) := by
  simp only [perform, hparser, Parser.run_fresh, isSettled]

/-- A parser that has run repeats its outcome and leaves everything as it is. -/
lemma perform_run_settled {outcome : Outcome Text} (hparser : s.parser = some (.settled outcome)) :
    s.perform .run = (.outcome outcome true, s) := by
  obtain ⟨source, parser⟩ := s
  obtain rfl : parser = some (.settled outcome) := hparser
  rfl

/-- Without a parser there is nothing to run. -/
lemma perform_run_none (hparser : s.parser = none) : s.perform .run = (.idle, s) := by
  simp only [perform, hparser]

/-- Whatever a source answers is what a stream answers at some item. -/
lemma exists_fetch_eq (answer : Fetch Text) : ∃ x : Item, x.fetch = answer := by
  rcases answer with message | _ | t
  · exact ⟨.failure message, rfl⟩
  · exact ⟨.pause, rfl⟩
  · exact ⟨.token t, rfl⟩

/-- An action asks the stream and does nothing else to it. -/
lemma IsOn.perform (h : IsOn stream s) (a : Action) : IsOn stream (s.perform a).2 := by
  cases a with
  | create =>
    rw [perform_create h]
    rfl
  | next =>
    rw [perform_next h]
    rfl
  | run =>
    cases hparser : s.parser with
    | none =>
      rw [perform_run_none hparser]
      exact h
    | some p =>
      cases p with
      | settled outcome =>
        rw [perform_run_settled hparser]
        exact h
      | fresh first =>
        obtain ⟨x, rfl⟩ := exists_fetch_eq first
        obtain ⟨k, hk⟩ := exists_reading .start x stream s.source.calls
        have hsource := hk.source
        rw [← h] at hsource
        rw [perform_run_fresh hparser]
        change (pull .start x.fetch s.source).2 = _
        rw [hsource]
        rfl

/-- The first action is performed before the others. -/
lemma after_cons (s : Session TokenStream Text) (a : Action) (as : List Action) :
    s.after (a :: as) = (s.perform a).2.after as := rfl

/-- Actions are performed one after another. -/
lemma after_append (s : Session TokenStream Text) (as bs : List Action) :
    s.after (as ++ bs) = (s.after as).after bs :=
  List.foldl_append

/-- After any actions, a session has only asked its stream. -/
lemma isOn_after (stream : TokenStream) (as : List Action) :
    IsOn stream ((ofSource stream).after as) := by
  induction as using List.reverseRecOn with
  | nil => rfl
  | append_singleton as a ih =>
    rw [after_append]
    exact ih.perform a

/-- Outsiders take one item each and leave the parser alone. -/
lemma after_replicate_next (h : s.source = stream.asked n) (k : Nat) :
    s.after (List.replicate k .next) = ⟨stream.asked (n + k), s.parser⟩ := by
  induction k generalizing s n with
  | zero =>
    obtain ⟨source, parser⟩ := s
    obtain rfl : source = stream.asked n := h
    rfl
  | succ k ih =>
    have hnext : n + 1 + k = n + (k + 1) := by omega
    rw [List.replicate_succ, after_cons, perform_next h, ih rfl, hnext]

/-- A parser that has run stays as it is until a new one is made. -/
lemma parser_after {outcome : Outcome Text} (hparser : s.parser = some (.settled outcome))
    {as : List Action} (has : .create ∉ as) : (s.after as).parser = some (.settled outcome) := by
  induction as generalizing s with
  | nil => exact hparser
  | cons a as ih =>
    have hhead : a ≠ .create := fun h => has (h ▸ List.mem_cons_self)
    have htail : .create ∉ as := fun h => has (List.mem_cons_of_mem a h)
    rw [after_cons]
    refine ih ?_ htail
    cases a with
    | create => exact absurd rfl hhead
    | next => exact hparser
    | run =>
      rw [perform_run_settled hparser]
      exact hparser

/-! ## The protocol -/

/-- The first run of a parser whose own item is the answer to question `first`, and that asks the
questions from `start` up to `stop`. -/
structure IsFirstRun (stream : TokenStream) (first start stop : Nat) (outcome : Outcome Text) :
    Prop where
  start_le_stop : start ≤ stop
  /-- All items that the parser has been given but the last are tokens, and the last one tells the
  outcome: it is the token that was found not to fit, the failure that is passed on, or the end. -/
  items : ∃ (ts : List Token) (last : Item),
    stream.answer first :: stream.answers start (stop - start) = ts.map .token ++ [last] ∧
      Concludes last outcome
  /-- The outcome is the one of a new parser on a stream of no other items than these. -/
  outcome_eq : outcome =
    Parser.outcome (⟨stream.answer first :: stream.answers start (stop - start)⟩ : TokenStream)

/-- What a parser reads in its first run, it reads as a new parser on these items alone does. -/
lemma isFirstRun_of_reading {first start k : Nat}
    (h : Reading .start (stream.answer first) stream start k) :
    IsFirstRun stream first start (start + k)
      (pull .start (stream.answer first).fetch (stream.asked start)).1 := by
  have hk : start + k - start = k := Nat.add_sub_cancel_left start k
  refine ⟨Nat.le_add_right start k, ?_, ?_⟩
  · rw [hk]
    exact h.items
  · have hnew : Parser.outcome (⟨stream.answer first :: stream.answers start k⟩ : TokenStream) =
        (pull .start (stream.answer first).fetch (⟨stream.answers start k⟩ : TokenStream)).1 := by
      unfold Parser.outcome
      rw [Parser.create, TokenStream.next_cons, Parser.run_fresh]
    rw [hk, hnew, h.outcome]

/-- In every session on a stream, whatever has been done before, making a parser asks one question.
After any number of questions from outside, the first run of this parser reads up to the end, a
failure or the token that it finds not to fit, and depends on the items it has been given alone.
Until a new parser is made, later runs ask nothing and repeat the outcome, as they would on any
source. -/
theorem protocol (stream : TokenStream) (earlier later : List Action) (outside : Nat)
    (hlater : .create ∉ later) :
    let waiting := earlier ++ .create :: List.replicate outside .next
    let settled := waiting ++ [.run]
    callsAfter stream (earlier ++ [.create]) = callsAfter stream earlier + 1 ∧
    callsAfter stream waiting = callsAfter stream earlier + 1 + outside ∧
    ∃ outcome, reply stream waiting .run = .outcome outcome false ∧
      IsFirstRun stream (callsAfter stream earlier) (callsAfter stream waiting)
        (callsAfter stream settled) outcome ∧
      reply stream (settled ++ later) .run = .outcome outcome true ∧
      callsAfter stream (settled ++ later ++ [.run]) = callsAfter stream (settled ++ later) ∧
      ∃ parser, ((ofSource stream).after (settled ++ later)).parser = some parser ∧
        ∀ src : Counted TokenStream, parser.run src = (outcome, parser, src) := by
  intro waiting settled
  let n := callsAfter stream earlier
  have hon : ((ofSource stream).after earlier).source = stream.asked n := isOn_after stream earlier
  have hcreated : (ofSource stream).after (earlier ++ [.create]) =
      ⟨stream.asked (n + 1), some (.fresh (stream.answer n).fetch)⟩ := by
    rw [after_append]
    exact congrArg Prod.snd (perform_create hon)
  have hwaiting : (ofSource stream).after waiting =
      ⟨stream.asked (n + 1 + outside), some (.fresh (stream.answer n).fetch)⟩ := by
    have hsplit : waiting = (earlier ++ [.create]) ++ List.replicate outside .next := by
      simp [waiting]
    rw [hsplit, after_append, hcreated, after_replicate_next rfl]
  obtain ⟨k, hk⟩ := exists_reading .start (stream.answer n) stream (n + 1 + outside)
  set outcome := (pull .start (stream.answer n).fetch (stream.asked (n + 1 + outside))).1
  have hrun : ((ofSource stream).after waiting).perform .run =
      (.outcome outcome false,
        ⟨stream.asked (n + 1 + outside + k), some (.settled outcome)⟩) := by
    rw [hwaiting, perform_run_fresh rfl, hk.source]
  have hsettled : (ofSource stream).after settled =
      ⟨stream.asked (n + 1 + outside + k), some (.settled outcome)⟩ := by
    rw [after_append]
    exact congrArg Prod.snd hrun
  have hparser : ((ofSource stream).after (settled ++ later)).parser = some (.settled outcome) := by
    rw [after_append]
    exact parser_after (by rw [hsettled]) hlater
  have hagain := perform_run_settled hparser
  have hcalls : callsAfter stream waiting = n + 1 + outside := by
    rw [callsAfter, hwaiting]
    rfl
  have hcalls' : callsAfter stream settled = n + 1 + outside + k := by
    rw [callsAfter, hsettled]
    rfl
  refine ⟨?_, hcalls, outcome, congrArg Prod.fst hrun, ?_, congrArg Prod.fst hagain, ?_, _, hparser,
    fun src => rfl⟩
  · rw [callsAfter, hcreated]
    rfl
  · rw [hcalls, hcalls']
    exact isFirstRun_of_reading hk
  · unfold callsAfter
    rw [after_append _ (settled ++ later)]
    exact congrArg (fun r => r.2.source.calls) hagain

/-- A pause, a number, a failure, a semicolon, a pause and a number. -/
def sharedStream : TokenStream :=
  ⟨[.pause, .token ⟨.number, utf8 "1", ⟨1, 1⟩⟩, .failure (utf8 "broken"),
    .token ⟨.semicolon, utf8 ";", ⟨1, 2⟩⟩, .pause, .token ⟨.number, utf8 "2", ⟨2, 1⟩⟩]⟩

/-- A parser that is given the number and, after an outsider has taken the failure, the semicolon
and the pause behind it, reads a program and keeps to it when the second number has been taken. -/
theorem protocol_sharedStream :
    .create ∉ [Action.next, .run] ∧
    callsAfter sharedStream [.next, .create] = 2 ∧
    callsAfter sharedStream [.next, .create, .next] = 3 ∧
    callsAfter sharedStream [.next, .create, .next, .run] = 5 ∧
    ∃ outcome, reply sharedStream [.next, .create, .next] .run = .outcome outcome false ∧
      IsFirstRun sharedStream 1 3 5 outcome ∧
      reply sharedStream [.next, .create, .next, .run, .next, .run] .run = .outcome outcome true ∧
      callsAfter sharedStream [.next, .create, .next, .run, .next, .run, .run] = 6 := by
  have hlater : .create ∉ [Action.next, .run] := by decide
  have hcalls : callsAfter sharedStream [.next] = 1 := by decide +kernel
  have hsettled : callsAfter sharedStream [.next, .create, .next, .run] = 5 := by decide +kernel
  have hagain : callsAfter sharedStream [.next, .create, .next, .run, .next, .run] = 6 := by
    decide +kernel
  obtain ⟨hcreated, hwaiting, outcome, hrun, hfirst, hlast, hlastCalls, -⟩ :=
    protocol sharedStream [.next] [.next, .run] 1 hlater
  simp only [List.cons_append, List.nil_append, List.replicate_one, hcalls, hsettled, hagain]
    at hcreated hwaiting hrun hfirst hlast hlastCalls
  rw [hwaiting] at hfirst
  exact ⟨hlater, hcreated, hwaiting, hsettled, outcome, hrun, hfirst, hlast, hlastCalls⟩

end Session

end ExprLang
