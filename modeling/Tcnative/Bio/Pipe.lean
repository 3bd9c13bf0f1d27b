-- SUMMARY: What the BIO is for: a bounded FIFO that is filled by offers and emptied into sink windows.
import Mathlib.Data.List.Basic

/-!
# Pipes

The purpose of the ByteBuffer BIO without its memory. A pipe holds a bounded
queue and a window. What is offered goes into the queue, or into a sink window
behind everything that was queued before; a source window is consumed from its
front. `step_conserves` is the law of the pipe: nothing is lost, duplicated or
reordered.
-/

namespace Bio

/-- The window of a pipe: none, one with room for more elements, or one with
elements to take. -/
inductive Window (α : Type) where
  | closed
  | sink (room : Nat)
  | source (left : List α)

/-- The room that a window has for queued elements. -/
def Window.room {α : Type} : Window α → Nat
  | .sink room => room
  | _ => 0

/-- The elements that are left to take from a window. -/
def Window.left {α : Type} : Window α → List α
  | .source left => left
  | _ => []

/-- A bounded queue with a window, and everything delivered to sinks so far. -/
structure Pipe (α : Type) where
  capacity : Nat
  queue : List α
  delivered : List α
  window : Window α

namespace Pipe

inductive Action (α : Type) where
  | offer (xs : List α)
  | take (n : Nat)
  | open (window : Window α)
  | flush

/-- What an action reports. An offer tells apart the queued elements it drained
and the offered elements it accepted. -/
inductive Outcome (α : Type) where
  | offered (drained accepted : Nat)
  | taken (xs : List α)
  | flushed (drained : Nat)
  | opened
  | again

variable {α : Type}

/-- Move as much of the queue as fits into a sink with the given room. -/
def drain (p : Pipe α) (room : Nat) : Nat × Pipe α :=
  let n := min room p.queue.length
  (n, { p with
    queue := p.queue.drop n
    delivered := p.delivered ++ p.queue.take n
    window := .sink (room - n) })

def step (p : Pipe α) : Action α → Outcome α × Pipe α
  | .offer xs =>
    match p.window with
    | .sink room =>
      if room = 0 then (.again, p)
      else
        -- The queue goes first, and the offer gets the room that is left.
        let d := (p.drain room).1
        let q := (p.drain room).2
        let n := min (room - d) xs.length
        (.offered d n,
          { q with delivered := q.delivered ++ xs.take n, window := .sink (room - d - n) })
    | _ =>
      if p.capacity ≤ p.queue.length then (.again, p)
      else
        let n := min (p.capacity - p.queue.length) xs.length
        (.offered 0 n, { p with queue := p.queue ++ xs.take n })
  | .take n =>
    match p.window with
    | .source (x :: xs) =>
      (.taken ((x :: xs).take n), { p with window := .source ((x :: xs).drop n) })
    | _ => (.again, p)
  | .open window => (.opened, { p with window })
  | .flush =>
    match p.window with
    | .sink room => (.flushed (p.drain room).1, (p.drain room).2)
    | _ => (.flushed 0, p)

theorem step_offer_full {p : Pipe α} (hwindow : ∀ room, p.window ≠ .sink room)
    (hfull : p.capacity ≤ p.queue.length) (xs : List α) : p.step (.offer xs) = (.again, p) := by
  cases hw : p.window with
  | sink room => exact absurd hw (hwindow room)
  | closed => simp [step, hw, hfull]
  | source left => simp [step, hw, hfull]

theorem step_offer_queue {p : Pipe α} (hwindow : ∀ room, p.window ≠ .sink room)
    (hroom : p.queue.length < p.capacity) {xs : List α} {n : Nat}
    (hn : min (p.capacity - p.queue.length) xs.length = n) :
    p.step (.offer xs) = (.offered 0 n, { p with queue := p.queue ++ xs.take n }) := by
  have hfull : ¬ p.capacity ≤ p.queue.length := by omega
  cases hw : p.window with
  | sink room => exact absurd hw (hwindow room)
  | closed => simp [step, hw, hfull, hn]
  | source left => simp [step, hw, hfull, hn]

theorem step_offer_sink {p q : Pipe α} {room d n : Nat} (hwindow : p.window = .sink room)
    (hroom : room ≠ 0) (hdrain : p.drain room = (d, q)) {xs : List α}
    (hn : min (room - d) xs.length = n) :
    p.step (.offer xs) =
      (.offered d n,
        { q with delivered := q.delivered ++ xs.take n, window := .sink (room - d - n) }) := by
  simp [step, hwindow, hroom, hdrain, hn]

theorem step_take_again {p : Pipe α} (hleft : p.window.left = []) (n : Nat) :
    p.step (.take n) = (.again, p) := by
  cases hw : p.window with
  | closed => simp [step, hw]
  | sink room => simp [step, hw]
  | source left =>
    obtain rfl : left = [] := by simpa [hw, Window.left] using hleft
    simp [step, hw]

theorem step_take_source {p : Pipe α} {left : List α} (hwindow : p.window = .source left)
    (hleft : left ≠ []) (n : Nat) :
    p.step (.take n) = (.taken (left.take n), { p with window := .source (left.drop n) }) := by
  cases left with
  | nil => exact absurd rfl hleft
  | cons x xs => simp [step, hwindow]

/-- An offer is refused, or accepts a prefix of what is offered and reports
what it drained for it. A sink with room refuses nothing. -/
theorem step_offer_cases (p : Pipe α) (xs : List α) :
    ((p.step (.offer xs)).1 = .again ∧ p.window.room = 0) ∨
    ∃ n, (p.step (.offer xs)).1 = .offered (min p.window.room p.queue.length) n ∧
      n ≤ xs.length := by
  cases hw : p.window with
  | sink room =>
    by_cases hroom : room = 0
    · left
      simp [step, hw, hroom, Window.room]
    · right
      rw [step_offer_sink hw hroom rfl rfl]
      exact ⟨_, rfl, by omega⟩
  | closed | source left =>
    have hnot : ∀ room, p.window ≠ .sink room := by simp [hw]
    rcases Nat.lt_or_ge p.queue.length p.capacity with hroom | hfull
    · right
      rw [step_offer_queue hnot hroom rfl]
      exact ⟨min (p.capacity - p.queue.length) xs.length, by simp [Window.room], by omega⟩
    · left
      rw [step_offer_full hnot hfull]
      exact ⟨rfl, rfl⟩

/-- The elements that an action added to the pipe. -/
def accepted : Action α → Outcome α → List α
  | .offer xs, .offered _ n => xs.take n
  | _, _ => []

/-- Everything that ever went in, in order: what was delivered and what waits. -/
def stream (p : Pipe α) : List α := p.delivered ++ p.queue

theorem drain_conserves (p : Pipe α) (room : Nat) : (p.drain room).2.stream = p.stream := by
  simp [drain, stream]

/-- Behind a drain that leaves room in the sink, nothing is queued. -/
theorem drain_empties {p : Pipe α} {room : Nat} (h : (p.drain room).1 < room) :
    (p.drain room).2.queue = [] := by
  simp only [drain] at h ⊢
  exact List.drop_eq_nil_of_le (by omega)

/-- An action extends the stream by what it accepted, and changes nothing else
of it. -/
theorem step_conserves (p : Pipe α) (a : Action α) :
    (p.step a).2.stream = p.stream ++ accepted a (p.step a).1 := by
  cases a with
  | offer xs =>
    simp only [step]
    split
    · rename_i room _
      split
      · simp [accepted]
      · -- Either the drain left room, and then the queue is empty, or it accepted nothing new.
        rw [← drain_conserves p room]
        rcases Nat.lt_or_ge (p.drain room).1 room with hlt | hge
        · simp [stream, accepted, drain_empties hlt]
        · simp [stream, accepted, Nat.sub_eq_zero_of_le hge]
    · split
      · simp [accepted]
      · simp [stream, accepted]
  | take n =>
    simp only [step]
    split <;> simp [stream, accepted]
  | «open» window => simp [step, stream, accepted]
  | flush =>
    simp only [step]
    split
    · simp [drain_conserves, accepted]
    · simp [accepted]

/-! ## Accounting -/

/-- The elements that an action offers. -/
def Action.offered : Action α → List α
  | .offer xs => xs
  | _ => []

/-- How many elements went into the sink. -/
def Outcome.moved : Outcome α → Nat
  | .offered drained accepted => drained + accepted
  | .flushed drained => drained
  | _ => 0

/-- The elements that were taken from the source. -/
def Outcome.took : Outcome α → List α
  | .taken xs => xs
  | _ => []

/-- The action leaves the window in place. -/
def Action.Stays : Action α → Prop
  | .open _ => False
  | _ => True

theorem step_take_moved (p : Pipe α) (n : Nat) : (p.step (.take n)).1.moved = 0 := by
  simp only [step]
  split <;> rfl

/-- Only a take takes. -/
theorem step_took {p : Pipe α} {a : Action α} (h : ∀ n, a ≠ .take n) : (p.step a).1.took = [] := by
  cases a with
  | offer xs =>
    simp only [step]
    split <;> split <;> rfl
  | take n => exact absurd rfl (h n)
  | «open» window => rfl
  | flush =>
    simp only [step]
    split <;> rfl

/-- A drain moves the first elements of the queue into the room of the sink. -/
theorem drain_accounts (p : Pipe α) (room : Nat) :
    (p.drain room).2.delivered = p.delivered ++ p.queue.take (p.drain room).1 ∧
    (p.drain room).1 ≤ room ∧ (p.queue.take (p.drain room).1).length = (p.drain room).1 := by
  refine ⟨rfl, Nat.min_le_left _ _, ?_⟩
  rw [List.length_take]
  exact Nat.min_eq_left (Nat.min_le_right _ _)

/-- Only behind a queue that is drained whole there is room for more. -/
theorem drain_take {p : Pipe α} {room d n : Nat} (hd : (p.drain room).1 = d) (hn : n ≤ room - d)
    (xs : List α) : (p.queue ++ xs).take (d + n) = p.queue.take d ++ xs.take n := by
  simp only [drain] at hd
  rcases Nat.lt_or_ge d p.queue.length with hlt | hge
  · obtain rfl : n = 0 := by omega
    rw [List.take_append_of_le_length (by omega)]
    simp
  · obtain rfl : d = p.queue.length := by omega
    rw [List.take_length, List.take_length_add_append]

/-- What goes into a sink takes up its room, and comes from the front of the
queue and of what is offered. -/
theorem step_sink {p : Pipe α} {room : Nat} (hwindow : p.window = .sink room) {a : Action α}
    (ha : a.Stays) :
    ∃ bs, (p.step a).2.delivered = p.delivered ++ bs ∧
      bs = (p.queue ++ a.offered).take (p.step a).1.moved ∧ bs.length = (p.step a).1.moved ∧
      bs.length ≤ room ∧ (p.step a).2.window = .sink (room - bs.length) := by
  obtain ⟨hdelivered, hroom, hlength⟩ := drain_accounts p room
  cases a with
  | offer xs =>
    by_cases hzero : room = 0
    · exact ⟨[], by simp [step, hwindow, hzero, Outcome.moved]⟩
    · generalize hd : (p.drain room).1 = d at *
      generalize hn : min (room - d) xs.length = n
      have hstep := step_offer_sink hwindow hzero (d := d) (q := (p.drain room).2) (by rw [← hd]) hn
      rw [hstep]
      have hxs : (xs.take n).length = n := List.length_take_of_le (by omega)
      have hboth : (p.queue.take d ++ xs.take n).length = d + n := by
        rw [List.length_append, hlength, hxs]
      refine ⟨p.queue.take d ++ xs.take n, ?_, ?_, hboth, ?_, ?_⟩
      · rw [hdelivered, List.append_assoc]
      · exact (drain_take (d := d) hd (by omega) xs).symm
      · rw [hboth]
        omega
      · rw [hboth, Nat.sub_sub]
  | take n => exact ⟨[], by simp [step, hwindow, Outcome.moved]⟩
  | «open» window => exact ha.elim
  | flush =>
    simp only [step, hwindow, Outcome.moved, Action.offered, List.append_nil]
    refine ⟨_, hdelivered, rfl, hlength, by omega, ?_⟩
    rw [hlength]
    rfl

/-- What is taken from a source is taken from its front, and nothing else
changes it. -/
theorem step_source {p : Pipe α} {left : List α} (hwindow : p.window = .source left)
    {a : Action α} (ha : a.Stays) :
    ∃ left', (p.step a).2.window = .source left' ∧ left = (p.step a).1.took ++ left' := by
  cases a with
  | offer xs =>
    refine ⟨left, ?_⟩
    simp only [step, hwindow]
    split
    · exact ⟨hwindow, rfl⟩
    · exact ⟨rfl, rfl⟩
  | take n =>
    cases left with
    | nil => exact ⟨[], by simp [step, hwindow, Outcome.took]⟩
    | cons x xs =>
      refine ⟨(x :: xs).drop n, ?_⟩
      rw [step_take_source hwindow (by simp) n]
      exact ⟨rfl, (List.take_append_drop n (x :: xs)).symm⟩
  | «open» window => exact ha.elim
  | flush => exact ⟨left, by simp [step, hwindow, Outcome.took]⟩

end Pipe

end Bio
