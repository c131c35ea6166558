import Mathlib.Data.Finset.Card
import MiniPgw.Lib.Run

/-!
# Requests over a network that loses and repeats

Every client sends one datagram to a server and waits for one answer. The network may lose a
datagram, deliver it more than once, at any time and in any order, in both directions: whatever was
sent stays in the network. Addresses without a client may send anything.

A client that was answered was sent that answer (`Sound`). So if a quantity of the server grows with
every answer of a kind and never shrinks, it grows at least by the number of clients that were given
such an answer (`answered_le`).
-/

namespace Datagrams

/-- A server, with the datagrams of its clients. -/
structure Server (σ κ δ α ω ε : Type*) where
  /-- What the client of an address asks; `none` for an address without a client. -/
  request : κ → Option δ
  /-- The datagram `δ` from the address `κ`; `ω` is what else the answer depends on. -/
  serve : σ → κ → δ → ω → σ × α
  /-- The steps of the server besides its answers. -/
  own : σ → ε → Option σ

inductive Place (α : Type*) where
  | idle
  | waiting
  | answered (a : α)
  | gaveUp
  deriving DecidableEq, Repr

structure State (σ κ α : Type*) where
  server : σ
  /-- The answers that were sent, with their receivers. -/
  sent : List (κ × α)
  clients : κ → Place α

inductive Event (κ δ α ω ε : Type*) where
  | ask (k : κ)
  /-- A datagram arrives at the server, and is answered. -/
  | serve (k : κ) (d : δ) (w : ω)
  | own (e : ε)
  /-- An answer arrives at a client that waits. -/
  | receive (k : κ) (a : α)
  | giveUp (k : κ)

variable {σ κ δ α ω ε : Type*} [DecidableEq κ] [DecidableEq δ] [DecidableEq α]
  {m : Server σ κ δ α ω ε} {s t : State σ κ α}

def start (server : σ) : State σ κ α where
  server := server
  sent := []
  clients := fun _ => .idle

/-- The datagram may be in the network. -/
def CanArrive (m : Server σ κ δ α ω ε) (s : State σ κ α) (k : κ) (d : δ) : Prop :=
  (m.request k = some d ∧ s.clients k ≠ .idle) ∨ m.request k = none

instance (m : Server σ κ δ α ω ε) (s : State σ κ α) (k : κ) (d : δ) :
    Decidable (CanArrive m s k d) :=
  inferInstanceAs (Decidable (_ ∨ _))

def step (m : Server σ κ δ α ω ε) (s : State σ κ α) : Event κ δ α ω ε → Option (State σ κ α)
  | .ask k =>
    if (m.request k).isSome ∧ s.clients k = .idle then
      some { s with clients := Function.update s.clients k .waiting }
    else none
  | .serve k d w =>
    if CanArrive m s k d then
      let served := m.serve s.server k d w
      some { s with server := served.1, sent := s.sent ++ [(k, served.2)] }
    else none
  | .own e => (m.own s.server e).map fun server => { s with server := server }
  | .receive k a =>
    if s.clients k = .waiting ∧ (k, a) ∈ s.sent then
      some { s with clients := Function.update s.clients k (.answered a) }
    else none
  | .giveUp k =>
    if s.clients k = .waiting then
      some { s with clients := Function.update s.clients k .gaveUp }
    else none

/-! ## What a step can do

One constructor for each kind of event, with the guard under which it happens. -/

inductive Step (m : Server σ κ δ α ω ε) (s : State σ κ α) :
    Event κ δ α ω ε → State σ κ α → Prop where
  | ask (k : κ) (hclient : (m.request k).isSome = true) (hidle : s.clients k = .idle) :
      Step m s (.ask k) { s with clients := Function.update s.clients k .waiting }
  | serve (k : κ) (d : δ) (w : ω) (harrive : CanArrive m s k d) :
      Step m s (.serve k d w) { s with
        server := (m.serve s.server k d w).1
        sent := s.sent ++ [(k, (m.serve s.server k d w).2)] }
  | own (e : ε) (server : σ) (hown : m.own s.server e = some server) :
      Step m s (.own e) { s with server := server }
  | receive (k : κ) (a : α) (hwaiting : s.clients k = .waiting) (hsent : (k, a) ∈ s.sent) :
      Step m s (.receive k a) { s with clients := Function.update s.clients k (.answered a) }
  | giveUp (k : κ) (hwaiting : s.clients k = .waiting) :
      Step m s (.giveUp k) { s with clients := Function.update s.clients k .gaveUp }

/-- **The inversion of `step`.** -/
theorem step_cases {e : Event κ δ α ω ε} (h : step m s e = some t) : Step m s e t := by
  cases e with
  | ask k =>
    obtain ⟨⟨hclient, hidle⟩, h⟩ := Option.ite_none_right_eq_some.mp h
    cases h
    exact .ask k hclient hidle
  | serve k d w =>
    obtain ⟨harrive, h⟩ := Option.ite_none_right_eq_some.mp h
    cases h
    exact .serve k d w harrive
  | own e =>
    obtain ⟨server, hown, rfl⟩ := Option.map_eq_some_iff.mp h
    exact .own e server hown
  | receive k a =>
    obtain ⟨⟨hwaiting, hsent⟩, h⟩ := Option.ite_none_right_eq_some.mp h
    cases h
    exact .receive k a hwaiting hsent
  | giveUp k =>
    obtain ⟨hwaiting, h⟩ := Option.ite_none_right_eq_some.mp h
    cases h
    exact .giveUp k hwaiting

/-! ## Answers and clients

The two facts that a client can rely on, whatever the network loses, repeats or reorders. -/

/-- Nobody was answered before asking, and whoever has an answer was sent it. -/
structure Sound (m : Server σ κ δ α ω ε) (s : State σ κ α) : Prop where
  asked : ∀ k a, (k, a) ∈ s.sent → (m.request k).isSome = true → s.clients k ≠ .idle
  sent : ∀ k a, s.clients k = .answered a → (k, a) ∈ s.sent

omit [DecidableEq κ] [DecidableEq δ] [DecidableEq α] in
theorem sound_start (server : σ) : Sound m (start server) where
  asked := fun _ _ h => by cases h
  sent := fun _ _ h => by cases h

omit [DecidableEq δ] [DecidableEq α] in
/-- A client that has asked moves on. -/
theorem Sound.move (h : Sound m s) {k : κ} {p : Place α} (hp : p ≠ .idle)
    (hsent : ∀ a, p = .answered a → (k, a) ∈ s.sent) :
    Sound m { s with clients := Function.update s.clients k p } where
  asked := fun k' a ha hclient => by
    show Function.update s.clients k p k' ≠ .idle
    by_cases hk : k' = k
    · rw [hk, Function.update_self]
      exact hp
    · rw [Function.update_of_ne hk]
      exact h.asked k' a ha hclient
  sent := fun k' a ha => by
    have ha' : Function.update s.clients k p k' = .answered a := ha
    by_cases hk : k' = k
    · rw [hk, Function.update_self] at ha'
      rw [hk]
      exact hsent a ha'
    · rw [Function.update_of_ne hk] at ha'
      exact h.sent k' a ha'

theorem sound_step (h : Sound m s) {e : Event κ δ α ω ε} (hstep : step m s e = some t) :
    Sound m t := by
  cases step_cases hstep with
  | ask k hclient hidle => exact h.move (by simp) (by simp)
  | receive k a hwaiting hsent =>
    refine h.move (by simp) fun b hb => ?_
    cases hb
    exact hsent
  | giveUp k hwaiting => exact h.move (by simp) (by simp)
  | own e server hown => exact ⟨h.asked, h.sent⟩
  | serve k d w harrive =>
    refine ⟨fun k' a ha hclient => ?_, fun k' a ha => List.mem_append_left _ (h.sent k' a ha)⟩
    rcases List.mem_append.mp ha with ha | ha
    · exact h.asked k' a ha hclient
    · cases List.mem_singleton.mp ha
      rcases harrive with ⟨-, hasked⟩ | hnone
      · exact hasked
      · rw [hnone] at hclient
        cases hclient

theorem sound_exec {server : σ} {es : List (Event κ δ α ω ε)}
    (hrun : Run.exec (step m) (start server) es = some s) : Sound m s :=
  Run.exec_invariant (fun _ _ _ h hstep => sound_step h hstep) (sound_start server) hrun

/-- The network forgets no answer. -/
theorem sent_extends {es : List (Event κ δ α ω ε)} (hrun : Run.exec (step m) s es = some t) :
    s.sent <+: t.sent := by
  have hkeep : ∀ (u : State σ κ α) (e : Event κ δ α ω ε) (v : State σ κ α), s.sent <+: u.sent →
      step m u e = some v → s.sent <+: v.sent := by
    intro u e v h hstep
    cases step_cases hstep with
    | serve k d w harrive => exact h.trans (List.prefix_append _ _)
    | _ => exact h
  exact Run.exec_invariant hkeep (List.prefix_refl _) hrun

/-! ## Counting the answers

A quantity of the server that grows with every answer of a kind bounds the number of these answers,
and so the number of clients that have one. -/

/-- The number of answers `a` to addresses with `p`. -/
def countSent (p : κ → Bool) (a : α) (s : State σ κ α) : ℕ :=
  s.sent.countP fun e => p e.1 && decide (e.2 = a)

/-- **Every answer of a kind is paid for.** If each answer `a` to an address with `p` makes the
quantity `μ` of the server larger, and nothing makes it smaller, it grows at least by the number of
these answers. -/
theorem countSent_le {Inv : σ → Prop} {μ : σ → ℕ} {p : κ → Bool} {a : α}
    (hserve : ∀ x k d w, Inv x → (m.request k = some d ∨ m.request k = none) →
      Inv (m.serve x k d w).1 ∧
        μ x + (if p k && decide ((m.serve x k d w).2 = a) then 1 else 0) ≤ μ (m.serve x k d w).1)
    (hown : ∀ x e y, Inv x → m.own x e = some y → Inv y ∧ μ x ≤ μ y)
    (hs : Inv s.server) {es : List (Event κ δ α ω ε)} (hrun : Run.exec (step m) s es = some t) :
    countSent p a t + μ s.server ≤ countSent p a s + μ t.server := by
  have hkeep : ∀ (u : State σ κ α) (e : Event κ δ α ω ε) (v : State σ κ α),
      Inv u.server ∧ countSent p a u + μ s.server ≤ countSent p a s + μ u.server →
      step m u e = some v →
      Inv v.server ∧ countSent p a v + μ s.server ≤ countSent p a s + μ v.server := by
    rintro u e v ⟨hinv, hle⟩ hstep
    -- only `own` and `serve` touch the server, and only `serve` sends an answer
    cases step_cases hstep with
    | ask k _ _ => exact ⟨hinv, hle⟩
    | receive k b _ _ => exact ⟨hinv, hle⟩
    | giveUp k _ => exact ⟨hinv, hle⟩
    | own e server h =>
      obtain ⟨hinv', hmono⟩ := hown _ _ _ hinv h
      refine ⟨hinv', ?_⟩
      show countSent p a u + μ s.server ≤ countSent p a s + μ server
      omega
    | serve k d w harrive =>
      obtain ⟨hinv', hgrow⟩ := hserve u.server k d w hinv (harrive.imp And.left id)
      refine ⟨hinv', ?_⟩
      -- one answer more, which counts if its address has `p` and it is `a`
      have hcount : countSent p a { u with
            server := (m.serve u.server k d w).1
            sent := u.sent ++ [(k, (m.serve u.server k d w).2)] }
          = countSent p a u
            + (if p k && decide ((m.serve u.server k d w).2 = a) then 1 else 0) := by
        unfold countSent
        rw [List.countP_append, List.countP_singleton]
      rw [hcount]
      show countSent p a u + (if p k && decide ((m.serve u.server k d w).2 = a) then 1 else 0)
          + μ s.server
        ≤ countSent p a s + μ (m.serve u.server k d w).1
      omega
  exact (Run.exec_invariant hkeep ⟨hs, Nat.le_refl _⟩ hrun).2

omit [DecidableEq δ] in
/-- The clients in `S` had not asked in `s` and have the answer `a` in `t`: each was sent it after
`s`. -/
theorem card_le_countSent (hs : Sound m s) (ht : Sound m t) (hsent : s.sent <+: t.sent)
    {p : κ → Bool} {a : α} {S : Finset κ}
    (hS : ∀ k ∈ S, p k = true ∧ (m.request k).isSome = true ∧ s.clients k = .idle ∧
      t.clients k = .answered a) : S.card + countSent p a s ≤ countSent p a t := by
  obtain ⟨rest, hrest⟩ := hsent
  -- each client of `S` has its answer behind the answers of `s`
  have hnew : ∀ k ∈ S, (k, a) ∈ rest.filter fun e => p e.1 && decide (e.2 = a) := by
    intro k hk
    obtain ⟨hp, hclient, hidle, hanswered⟩ := hS k hk
    have hin : (k, a) ∈ t.sent := ht.sent k a hanswered
    rw [← hrest] at hin
    rcases List.mem_append.mp hin with hold | hin
    · exact absurd hidle (hs.asked k a hold hclient)
    · exact List.mem_filter.mpr ⟨hin, by simp [hp]⟩
  -- different clients, so different answers
  have hcard : (S.image fun k => (k, a)).card = S.card :=
    Finset.card_image_of_injective S fun k k' h => (Prod.mk.inj h).1
  have hsub : S.image (fun k => (k, a))
      ⊆ (rest.filter fun e => p e.1 && decide (e.2 = a)).toFinset := by
    intro e he
    obtain ⟨k, hk, rfl⟩ := Finset.mem_image.mp he
    exact List.mem_toFinset.mpr (hnew k hk)
  have hle : S.card ≤ rest.countP fun e => p e.1 && decide (e.2 = a) := by
    calc S.card = (S.image fun k => (k, a)).card := hcard.symm
      _ ≤ (rest.filter fun e => p e.1 && decide (e.2 = a)).toFinset.card := Finset.card_le_card hsub
      _ ≤ (rest.filter fun e => p e.1 && decide (e.2 = a)).length := List.toFinset_card_le _
      _ = rest.countP fun e => p e.1 && decide (e.2 = a) := List.countP_eq_length_filter.symm
  have hcount : countSent p a t
      = countSent p a s + rest.countP fun e => p e.1 && decide (e.2 = a) := by
    unfold countSent
    rw [← hrest, List.countP_append]
  omega

/-- **The clients that were given an answer are paid for.** Between two states of a run the quantity
`μ` grows at least by the number of clients with `p` that asked in between and have the answer
`a`. -/
theorem answered_le {Inv : σ → Prop} {μ : σ → ℕ} {p : κ → Bool} {a : α}
    (hserve : ∀ x k d w, Inv x → (m.request k = some d ∨ m.request k = none) →
      Inv (m.serve x k d w).1 ∧
        μ x + (if p k && decide ((m.serve x k d w).2 = a) then 1 else 0) ≤ μ (m.serve x k d w).1)
    (hown : ∀ x e y, Inv x → m.own x e = some y → Inv y ∧ μ x ≤ μ y)
    (hinv : Inv s.server) (hs : Sound m s) {es : List (Event κ δ α ω ε)}
    (hrun : Run.exec (step m) s es = some t) {S : Finset κ}
    (hS : ∀ k ∈ S, p k = true ∧ (m.request k).isSome = true ∧ s.clients k = .idle ∧
      t.clients k = .answered a) : S.card + μ s.server ≤ μ t.server := by
  have ht : Sound m t := Run.exec_invariant (fun _ _ _ h hstep => sound_step h hstep) hs hrun
  have hpaid := countSent_le hserve hown hinv hrun
  have hcard := card_le_countSent hs ht (sent_extends hrun) hS
  omega

end Datagrams
