import Mathlib.Data.List.Basic

/-! # Sealed channels in order

A transport seals the messages it sends and opens the ciphertexts it receives, each under a state of
its own that moves along with the traffic. `Discipline` lists what such a pair of operations has to
satisfy to be used over a channel that delivers in order: `Flows s q r` says that the receiver `r` is
ready for exactly the ciphertexts `q` that are under way from `s`. Both directions of a connection
together are `Linked`, and the rules of `Linked` are what a protocol proof uses: sealing appends,
opening takes the first, and both ends may change keys while nothing is under way. -/

namespace Rnet.Lib.SealedChannel

/-- Transports `T` that carry messages `M` as ciphertexts `C`. -/
structure Discipline (T M C : Type) where
  /-- sealing a message moves the sender's transport and yields a ciphertext -/
  Seals : T → M → T → C → Prop
  /-- sealing a message whose ciphertext is thrown away -/
  Wastes : T → T → Prop
  /-- opening a ciphertext moves the receiver's transport -/
  opens : T → C → Option (T × M)
  /-- both directions change to the next key -/
  rekey : T → T
  /-- the receiver is ready for what is under way -/
  Flows : T → List (M × C) → T → Prop
  flows_send {s s' r : T} {q : List (M × C)} {m : M} {c : C} :
    Flows s q r → Seals s m s' c → Flows s' (q ++ [(m, c)]) r
  flows_sent {x s s' : T} {q : List (M × C)} {m : M} {c : C} :
    Flows x q s → Seals s m s' c → Flows x q s'
  flows_waste {s s' r : T} {q : List (M × C)} : Flows s q r → Wastes s s' → Flows s' q r
  flows_wasted {x s s' : T} {q : List (M × C)} : Flows x q s → Wastes s s' → Flows x q s'
  flows_receive {s r : T} {q : List (M × C)} {m : M} {c : C} :
    Flows s ((m, c) :: q) r → ∃ r', opens r c = some (r', m) ∧ Flows s q r'
  flows_received {r r' x : T} {q : List (M × C)} {m : M} {c : C} :
    Flows r q x → opens r c = some (r', m) → Flows r' q x
  flows_rekey {s r : T} : Flows s [] r → Flows (rekey s) [] (rekey r)

variable {T M C : Type} {D : Discipline T M C}

/-- Both directions of a connection. -/
structure Linked (D : Discipline T M C) (a b : T) (toB toA : List (M × C)) : Prop where
  forth : D.Flows a toB b
  back : D.Flows b toA a

namespace Linked

variable {a b : T} {toA toB : List (M × C)}

theorem swap (h : Linked D a b toB toA) : Linked D b a toA toB := ⟨h.back, h.forth⟩

theorem seals (h : Linked D a b toB toA) (hs : D.Seals a m a' c) :
    Linked D a' b (toB ++ [(m, c)]) toA :=
  ⟨D.flows_send h.forth hs, D.flows_sent h.back hs⟩

theorem wastes (h : Linked D a b toB toA) (hw : D.Wastes a a') : Linked D a' b toB toA :=
  ⟨D.flows_waste h.forth hw, D.flows_wasted h.back hw⟩

theorem opens {m : M} {c : C} (h : Linked D a b ((m, c) :: toB) toA) :
    ∃ b', D.opens b c = some (b', m) ∧ Linked D a b' toB toA := by
  obtain ⟨b', ho, hf⟩ := D.flows_receive h.forth
  exact ⟨b', ho, hf, D.flows_received h.back ho⟩

theorem rekeys (h : Linked D a b [] []) : Linked D (D.rekey a) (D.rekey b) [] [] :=
  ⟨D.flows_rekey h.forth, D.flows_rekey h.back⟩

end Linked

end Rnet.Lib.SealedChannel
