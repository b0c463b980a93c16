/-
TOKENS: `isA` and `isNot` of one set take turns at an input, and cut all of it into runs.

- `turn`: the two parsers of a set, by the side of the set that they look for. `turn_success_iff`: a turn cuts at the end
  of the run of its side, if that run is not empty.
- `IsTurn`: all that a turn does. It takes some elements, all of them of its own side, and leaves the others, which begin
  with one of the other side if there are any.
- `TakesTurns`: on an empty input neither parser succeeds, on every other exactly one, and what it leaves is for the
  other one.
- `Tokens`: a run of any length, each step by a parser that succeeds. `Lossless`: what one step keeps (`lossless_next`),
  every run keeps: the tokens put together and the rest are the input, no two neighbours are of the same side, and no
  token is empty, so that there are no more tokens than elements. `RunsOut`: some run arrives at the end.
- `turns_tokenise_without_loss`: **whatever the set and the input, runs lose nothing, and there is one to the end.** The
  set and the input may hold surrogates that stand alone.
-/
import SliceParser.Proofs.Primitive.LongestRun

namespace SliceParser

namespace Primitive

variable {V κ α ω E : Type} [Position ω] [View V κ ω] [Alphabet κ α] [DecidableEq α]

/-! ## Turns -/

/-- the parser of the elements of a set, or of all others -/
def turn (errors : ErrorStrategy V E) (set : V) (inside : Bool) : Parser V V E :=
  if inside then Parser.isA set errors else Parser.isNot set errors

def turnKind (inside : Bool) : ErrorKind :=
  if inside then .isA else .isNot

/-- the element is of one side of the set -/
def OnSide (set : V) (inside : Bool) (e : α) : Prop := View.contains set e = inside

/-- the element ends a run of one side of the set -/
def endsRun (set : V) (inside : Bool) (e : α) : Bool := View.contains set e != inside

theorem endsRun_iff (set : V) (inside : Bool) (e : α) : endsRun set inside e = true ↔ ¬ OnSide set inside e :=
  bne_iff_ne

variable {errors : ErrorStrategy V E} {set input rest value last : V} {inside : Bool}

theorem turn_eq (errors : ErrorStrategy V E) (set : V) (inside : Bool) (input : V) :
    turn errors set inside input =
      if View.runEnd input (endsRun set inside) = 0 then .ok (.error (errors.fromKind input (turnKind inside)))
      else Parser.cut input (View.runEnd input (endsRun set inside)) := by
  cases inside with
  | true =>
    have hends : endsRun set true = fun e => !(View.members set).contains e := by
      funext e
      exact Bool.bne_true _
    rw [hends]
    rfl
  | false =>
    have hends : endsRun set false = (View.members set).contains := by
      funext e
      exact Bool.bne_false _
    rw [hends]
    rfl

theorem turn_success_iff : turn errors set inside input = .ok (.success rest value) ↔
    View.runEnd input (endsRun set inside) ≠ 0 ∧ rest = View.drop input (View.runEnd input (endsRun set inside)) ∧
      value = View.take input (View.runEnd input (endsRun set inside)) := by
  rw [turn_eq]
  exact Parser.cut_unless_success_iff (View.runEnd_isBoundary input _).le_length

theorem turn_succeeds_iff : (∃ rest value, turn errors set inside input = .ok (.success rest value)) ↔
    ¬ AtStop (OnSide set inside) input := by
  rw [← runEnd_eq_zero_iff (endsRun_iff set inside)]
  constructor
  · rintro ⟨rest, value, hrun⟩
    exact (turn_success_iff.1 hrun).1
  · intro hne
    exact ⟨_, _, turn_success_iff.2 ⟨hne, rfl, rfl⟩⟩

theorem turn_of_atStop (h : AtStop (OnSide set inside) input) :
    turn errors set inside input = .ok (.error (errors.fromKind input (turnKind inside))) := by
  rw [turn_eq, if_pos ((runEnd_eq_zero_iff (endsRun_iff set inside) input).2 h)]

/-- all that a turn does: it takes elements of its side, as many as stand in front -/
structure IsTurn (set : V) (inside : Bool) (input rest value : V) : Prop where
  content : View.content value ++ View.content rest = View.content input
  members : View.members value ++ View.members rest = (View.members input : List α)
  nonempty : View.length value ≠ 0
  onSide : ∀ n e, (n, e) ∈ View.elements value → OnSide set inside e
  atStop : AtStop (OnSide set inside) rest

theorem isTurn_of_success [Rereading κ] (h : turn errors set inside input = .ok (.success rest value)) :
    IsTurn set inside input rest value := by
  obtain ⟨hne, rfl, rfl⟩ := turn_success_iff.1 h
  obtain ⟨hfront, hback⟩ := members_of_run input (endsRun set inside)
  constructor
  · rw [View.content_take, View.content_drop, List.take_append_drop]
  · rw [hfront, hback, List.takeWhile_append_dropWhile]
  · rwa [View.length_take, Nat.min_eq_left (View.runEnd_isBoundary input _).le_length]
  · intro n e he
    exact mem_run (endsRun_iff set inside) he
  · exact atStop_behind_run (endsRun_iff set inside) input

/-- a turn makes progress -/
theorem IsTurn.members_lt (h : IsTurn set inside input rest value) :
    (View.members rest : List α).length < (View.members input : List α).length := by
  have hpos : 0 < (View.members value : List α).length :=
    List.length_pos_iff.2 (mt View.length_eq_zero_iff.2 h.nonempty)
  rw [← h.members, List.length_append]
  omega

/-! ## Whose turn it is -/

/-- a view that is at a stop of both sides is empty -/
theorem atStop_not_iff (hne : View.length input ≠ 0) :
    AtStop (OnSide set (!inside)) input ↔ ¬ AtStop (OnSide set inside) input := by
  cases hmembers : (View.members input : List α) with
  | nil => exact absurd (View.length_eq_zero_iff.2 hmembers) hne
  | cons e es =>
    rw [atStop_iff, atStop_iff, hmembers]
    simp [OnSide]

/-- the two parsers take turns from here -/
structure TakesTurns (errors : ErrorStrategy V E) (set input : V) : Prop where
  empty : View.length input = 0 →
    ∀ inside, turn errors set inside input = .ok (.error (errors.fromKind input (turnKind inside)))
  /-- one succeeds, and the other does not -/
  one : View.length input ≠ 0 → ∃ inside, (∃ rest value, turn errors set inside input = .ok (.success rest value)) ∧
    turn errors set (!inside) input = .ok (.error (errors.fromKind input (turnKind !inside)))
  /-- what one leaves is for the other -/
  other : ∀ inside rest value, turn errors set inside input = .ok (.success rest value) → View.length rest ≠ 0 →
    ∃ rest' value', turn errors set (!inside) rest = .ok (.success rest' value')

theorem takesTurns [Rereading κ] (errors : ErrorStrategy V E) (set input : V) : TakesTurns errors set input where
  empty := by
    intro hempty inside
    exact turn_of_atStop (Or.inl hempty)
  one := by
    intro hne
    by_cases hinside : AtStop (OnSide set true) input
    · exact ⟨false, turn_succeeds_iff.2 ((atStop_not_iff hne).1 hinside), turn_of_atStop hinside⟩
    · exact ⟨true, turn_succeeds_iff.2 hinside, turn_of_atStop ((atStop_not_iff hne).2 hinside)⟩
  other := by
    intro inside rest value hrun hne
    rw [turn_succeeds_iff, atStop_not_iff hne, not_not]
    exact (isTurn_of_success hrun).atStop

/-! ## Runs -/

/-- from the input to `last` by turns, with the side and the value of each -/
inductive Tokens (errors : ErrorStrategy V E) (set : V) : V → List (Bool × V) → V → Prop
  | stay (v : V) : Tokens errors set v [] v
  | next {input rest value last : V} {inside : Bool} {tokens : List (Bool × V)} :
      turn errors set inside input = .ok (.success rest value) → Tokens errors set rest tokens last →
      Tokens errors set input ((inside, value) :: tokens) last

variable {tokens : List (Bool × V)}

/-- tokens and what they leave are the input, in order, with nothing lost and nothing twice -/
structure Lossless (set input : V) (tokens : List (Bool × V)) (last : V) : Prop where
  content : (tokens.flatMap fun token => View.content token.2) ++ View.content last = View.content input
  members : (tokens.flatMap fun token => View.members token.2) ++ View.members last = (View.members input : List α)
  /-- every token takes at least one element -/
  count : tokens.length + (View.elements last : List (Nat × α)).length ≤ (View.elements input : List (Nat × α)).length
  /-- a token lies in the set or outside -/
  onSide : ∀ inside value, (inside, value) ∈ tokens → View.length value ≠ 0 ∧
    ∀ n e, (n, e) ∈ View.elements value → View.contains set e = inside
  alternate : (tokens.map Prod.fst).IsChain (· ≠ ·)

theorem lossless_stay (set v : V) : Lossless set v [] v where
  content := List.nil_append _
  members := List.nil_append _
  count := (Nat.zero_add _).le
  onSide := nofun
  alternate := .nil

/-- the side of a turn is not that of the next -/
theorem ne_of_tokens (hstop : AtStop (OnSide set inside) rest) (h : Tokens errors set rest tokens last) :
    ∀ other ∈ (tokens.map Prod.fst).head?, inside ≠ other := by
  cases h with
  | stay => exact nofun
  | next hturn _ =>
    intro other hother heq
    obtain rfl := Option.some.inj hother
    subst heq
    exact turn_succeeds_iff.1 ⟨_, _, hturn⟩ hstop

/-- one turn more in front -/
theorem lossless_next [Rereading κ] (hturn : IsTurn set inside input rest value)
    (hfirst : ∀ other ∈ (tokens.map Prod.fst).head?, inside ≠ other) (h : Lossless set rest tokens last) :
    Lossless set input ((inside, value) :: tokens) last where
  content := by
    rw [List.flatMap_cons, List.append_assoc, h.content, hturn.content]
  members := by
    rw [List.flatMap_cons, List.append_assoc, h.members, hturn.members]
  count := by
    have hcount := h.count
    have hless := hturn.members_lt
    rw [View.length_elements, View.length_elements] at hcount ⊢
    rw [List.length_cons]
    omega
  onSide := by
    intro inside' value' hmem
    rcases List.mem_cons.1 hmem with heq | hlater
    · cases heq
      exact ⟨hturn.nonempty, hturn.onSide⟩
    · exact h.onSide inside' value' hlater
  alternate := List.isChain_cons.2 ⟨hfirst, h.alternate⟩

/-- **Runs lose nothing**, by induction on the turns: each puts its token in front of those that follow. -/
theorem lossless_of_tokens [Rereading κ] (h : Tokens errors set input tokens last) :
    Lossless set input tokens last := by
  induction h with
  | stay v => exact lossless_stay set v
  | next hrun htokens ih =>
    have hturn := isTurn_of_success hrun
    exact lossless_next hturn (ne_of_tokens hturn.atStop htokens) ih

/-- there is a run to the end, by induction on the number of elements: as long as there is one, it is someone's turn -/
theorem exists_tokens [Rereading κ] (errors : ErrorStrategy V E) (set input : V) :
    ∃ tokens last, Tokens errors set input tokens last ∧ View.length last = 0 := by
  induction hcount : (View.members input : List α).length using Nat.strong_induction_on generalizing input with
  | _ count ih =>
    by_cases hempty : View.length input = 0
    · exact ⟨[], input, .stay input, hempty⟩
    · obtain ⟨inside, ⟨rest, value, hrun⟩, -⟩ := (takesTurns errors set input).one hempty
      have hturn := isTurn_of_success hrun
      obtain ⟨tokens, last, htokens, hlast⟩ := ih _ (hcount ▸ hturn.members_lt) rest rfl
      exact ⟨_, last, .next hrun htokens, hlast⟩

/-- there is a run to the end, no longer than the input, whose tokens put together are the input -/
def RunsOut (errors : ErrorStrategy V E) (set input : V) : Prop :=
  ∃ tokens last, Tokens errors set input tokens last ∧ View.length last = 0 ∧
    tokens.length ≤ (View.elements input : List (Nat × α)).length ∧
    (tokens.flatMap fun token => View.content token.2) = View.content input

theorem runsOut [Rereading κ] (errors : ErrorStrategy V E) (set input : V) : RunsOut errors set input := by
  obtain ⟨tokens, last, htokens, hlast⟩ := exists_tokens errors set input
  have hlossless := lossless_of_tokens htokens
  refine ⟨tokens, last, htokens, hlast, (Nat.le_add_right _ _).trans hlossless.count, ?_⟩
  rw [← hlossless.content, List.eq_nil_of_length_eq_zero ((View.length_content last).trans hlast), List.append_nil]

end Primitive

open Primitive

/-- **Turns tokenise without loss**, on every text and on all octets and whatever the set: at each step it is the turn of
exactly one of the two, every run so far has kept everything, and some run arrives at the end in at most as many steps as
the input has elements. -/
theorem turns_tokenise_without_loss {E : Type} :
    (∀ (errors : ErrorStrategy Text E) (set input : Text), TakesTurns errors set input ∧
      (∀ tokens last, Tokens errors set input tokens last → Lossless set input tokens last) ∧
      RunsOut errors set input) ∧
    (∀ (errors : ErrorStrategy Bytes E) (set input : Bytes), TakesTurns errors set input ∧
      (∀ tokens last, Tokens errors set input tokens last → Lossless set input tokens last) ∧
      RunsOut errors set input) := by
  constructor
  · intro errors set input
    exact ⟨takesTurns errors set input, fun _ _ => lossless_of_tokens, runsOut errors set input⟩
  · intro errors set input
    exact ⟨takesTurns errors set input, fun _ _ => lossless_of_tokens, runsOut errors set input⟩

/-- half of a pair stands alone in the set and in front of the input, and the whole pair behind it is not in the set -/
theorem turns_tokenise_lone_halves :
    let simple : ErrorStrategy Text (SimpleError Text) := .simple
    let set : Text := .ofUnits [0xDE00]
    let input : Text := ⟨⟨[0xD83D, 0xDE00, 0x61, 0xD83D, 0xDE00], 1, 5, by decide, by decide⟩⟩
    let tokens := [(true, View.take input 1), (false, View.drop input 1)]
    let last := View.drop input 4
    let simpleOctets : ErrorStrategy Bytes (SimpleError Bytes) := .simple
    let ones : Bytes := .ofOctets [1] 0 (.ofInt 0)
    let octets : Bytes := .ofOctets [3, 1, 1] 0 (.ofInt 7)
    let octetTokens := [(false, View.take octets 1), (true, View.drop octets 1)]
    let lastOctets := View.drop (View.drop octets 1) 2
    Tokens simple set input tokens last ∧ Lossless set input tokens last ∧
    (tokens.map fun token => View.content token.2) = [[0xDE00], [0x61, 0xD83D, 0xDE00]] ∧
    Tokens simpleOctets ones octets octetTokens lastOctets ∧ Lossless ones octets octetTokens lastOctets := by
  intro simple set input tokens last simpleOctets ones octets octetTokens lastOctets
  have hhalf : turn simple set true input = .ok (.success (View.drop input 1) (View.take input 1)) := rfl
  have hothers : turn simple set false (View.drop input 1) = .ok (.success last (View.drop input 1)) := rfl
  have hthree : turn simpleOctets ones false octets = .ok (.success (View.drop octets 1) (View.take octets 1)) := rfl
  have hones : turn simpleOctets ones true (View.drop octets 1) = .ok (.success lastOctets (View.drop octets 1)) := rfl
  have htext : Tokens simple set input tokens last := .next hhalf (.next hothers (.stay last))
  have hoctets : Tokens simpleOctets ones octets octetTokens lastOctets := .next hthree (.next hones (.stay lastOctets))
  exact ⟨htext, (turns_tokenise_without_loss.1 simple set input).2.1 tokens last htext, rfl, hoctets,
    (turns_tokenise_without_loss.2 simpleOctets ones octets).2.1 octetTokens lastOctets hoctets⟩

end SliceParser
