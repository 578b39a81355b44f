import LightingDesk.Dmx.Feed

/-!
# A feed and a frame in memory

A feed of which the same is asked as of a frame in memory holds the same levels, whatever fails to
get through to its server.  Both refuse the same requests, and then the feed sends nothing.  A
request that is taken changes the channels it addresses and no others, and the feed sends the
universe once.

    a request is refused for a fault of its own                      (check_write)
    one that is taken gives each channel its level                   (level_apply_write)
    a request keeps a feed and a frame in memory in step             (mirrors_ask)
    and so do requests one after the other                           (mirrors_serve)
    what each of the two holds, sends and answers                    (feed_mirrors_memory)
-/

namespace LightingDesk

/-- Something asked of a sink. -/
inductive SinkRequest
  | set (address : UInt16) (values : List UInt8)
  | setAll (frame : Frame)
  | clear
deriving DecidableEq, Repr

namespace SinkRequest

/-- The write that a request asks for. -/
def write : SinkRequest → Write
  | set address values => .run address.toNat values
  | setAll frame => .whole frame
  | clear => .whole Frame.dark

/-- Why a request is refused, if it is. -/
def fault : SinkRequest → Option SinkError
  | set address values =>
    if 4 < values.length then some (.tooWide values.length)
    else if address = 0 ∨ 513 < address.toNat + values.length then
      some (.outside address.toNat values.length)
    else none
  | setAll _ => none
  | clear => none

/-- The level that a request leaves at index `c` of a frame when it is taken. -/
def level (request : SinkRequest) (f : Frame) (c : Nat) : UInt8 :=
  match request with
  | set address values =>
    if address.toNat ≤ c ∧ c < address.toNat + values.length then values.getD (c - address.toNat) 0
    else f.level c
  | setAll g => if c = 0 then 0 else g.level c
  | clear => 0

theorem check_write (request : SinkRequest) :
    request.write.check =
      match request.fault with
      | some e => .error e
      | none => .ok () := by
  cases request with
  | set address values =>
    have hzero : address = 0 ↔ address.toNat = 0 := UInt16.toNat_inj.symm
    show checkRun address.toNat values.length = _
    by_cases hwide : 4 < values.length
    · rw [fault, if_pos hwide]
      exact if_pos hwide
    · by_cases hin : 1 ≤ address.toNat ∧ address.toNat + values.length ≤ 513
      · rw [fault, if_neg hwide, if_neg (by rw [hzero]; omega)]
        exact (checkRun_eq_ok_iff _ _).2 ⟨by omega, hin⟩
      · rw [fault, if_neg hwide, if_pos (by rw [hzero]; omega)]
        exact (if_neg hwide).trans (if_neg hin)
  | setAll frame => rfl
  | clear => rfl

/-- Four levels fit up to the last channel, and a run of none fits behind it. -/
example : (set 509 [1, 2, 3, 4]).fault = none ∧ (set 513 []).fault = none ∧
    (set 510 [1, 2, 3, 4]).fault = some (.outside 510 4) := by decide

/-- A request to set some channels that is taken addresses channels of the universe. -/
theorem within_of_fault {address : UInt16} {values : List UInt8}
    (h : (set address values).fault = none) :
    1 ≤ address.toNat ∧ address.toNat + values.length ≤ 513 := by
  have hcheck := check_write (set address values)
  rw [h] at hcheck
  exact ((checkRun_eq_ok_iff address.toNat values.length).1 hcheck).2

theorem level_apply_write {request : SinkRequest} (h : request.fault = none) (f : Frame) (c : Nat) :
    (f.apply request.write).level c = request.level f c := by
  cases request with
  | set address values =>
    obtain ⟨_, hend⟩ := within_of_fault h
    show (f.store address.toNat values).level c = _
    rw [Frame.level_store, level]
    by_cases hc : address.toNat ≤ c ∧ c < address.toNat + values.length
    · have hlt : c - address.toNat < values.length := by omega
      rw [if_pos ⟨hc.1, by omega⟩, if_pos hc, List.getD_eq_getElem?_getD,
        List.getElem?_eq_getElem hlt]
      rfl
    · rw [if_neg hc]
      split
      · rename_i hd
        rw [List.getElem?_eq_none (by omega)]
        rfl
      · rfl
  | setAll g =>
    show g.grounded.level c = if c = 0 then 0 else g.level c
    split
    · rename_i hc
      rw [hc, Frame.level_grounded_zero]
    · exact Frame.level_grounded g (by omega)
  | clear =>
    show Frame.dark.grounded.level c = 0
    rw [Frame.grounded_dark, Frame.level_dark]

/-- Index 0 stays at zero, for no request that is taken addresses it. -/
theorem level_zero {request : SinkRequest} (h : request.fault = none) {f : Frame}
    (hf : f.level 0 = 0) : request.level f 0 = 0 := by
  cases request with
  | set address values =>
    obtain ⟨hstart, _⟩ := within_of_fault h
    rw [level, if_neg (by omega), hf]
  | setAll g => rfl
  | clear => rfl

end SinkRequest

namespace Sink

variable {σ : Type} [Sink σ]

/-- Does what is asked of a sink. -/
def ask (sink : σ) (author : Author) : SinkRequest → σ × Except SinkError Unit
  | .set address values => write sink author (.run address.toNat values)
  | .setAll frame => write sink author (.whole frame)
  | .clear => clear sink author

/-- Does what is asked by several authors, one request after the other. -/
def serve (sink : σ) (requests : List (Author × SinkRequest)) : σ :=
  requests.foldl (fun sink request => (ask sink request.1 request.2).1) sink

theorem ask_eq (sink : σ) (author : Author) (request : SinkRequest) :
    ask sink author request = write sink author request.write := by
  cases request <;> rfl

end Sink

open Sink

theorem Frame.ask_eq (f : Frame) (author : Author) (request : SinkRequest) :
    ask f author request =
      match request.fault with
      | some e => (f, .error e)
      | none => (f.apply request.write, .ok ()) := by
  rw [Sink.ask_eq]
  simp only [Sink.write]
  rw [request.check_write]
  cases request.fault <;> rfl

namespace Feed

theorem ask_eq (s : Feed) (author : Author) (request : SinkRequest) :
    ask s author request =
      match request.fault with
      | some e => (s, .error e)
      | none => flush { s with kept := s.kept.apply request.write } := by
  rw [Sink.ask_eq]
  simp only [Sink.write]
  rw [request.check_write]
  cases request.fault <;> rfl

/-- How a feed that has just taken a request goes on: it hands one message to the connection, which
holds the level of each channel, and the message gets through unless the answer says why it did
not. -/
structure SendsOnce (s s' : Feed) (answer : Except SinkError Unit) (message : Message) : Prop where
  offered_eq : s'.offered = message :: s.offered
  number_eq : message.number = s.number
  length_eq : message.levels.length = 512
  level_eq : ∀ c, 1 ≤ c → c ≤ 512 → message.levels[c - 1]? = some (s'.kept.level c)
  answer_eq : answer = (s.refuses s.attempts).elim (.ok ()) fun reason => .error (.output reason)
  sent_eq : s'.sent = if (s.refuses s.attempts).isSome then s.sent else message :: s.sent

/-- What sending the kept levels does, whether or not they get through. -/
theorem flush_eq (s : Feed) :
    let message : Message := ⟨s.number, s.kept.buffer.toList⟩
    flush s =
      ({ s with
          offered := message :: s.offered
          sent := if (s.refuses s.attempts).isSome then s.sent else message :: s.sent },
        (s.refuses s.attempts).elim (.ok ()) fun reason => .error (.output reason)) := by
  intro message
  unfold flush
  cases s.refuses s.attempts <;> rfl

theorem sendsOnce_flush (s : Feed) (f : Frame) :
    s.SendsOnce (flush { s with kept := f }).1 (flush { s with kept := f }).2
      ⟨s.number, f.buffer.toList⟩ := by
  rw [flush_eq]
  refine ⟨rfl, rfl, f.buffer.length_toList, ?_, rfl, rfl⟩
  intro c h1 h2
  have hc : c - 1 + 1 = c := by omega
  rw [f.getElem?_buffer (show c - 1 < 512 by omega), hc]

/-- A feed that is in step with a frame in memory. -/
structure Mirrors (number : UInt32) (refuses : Nat → Option String) (s : Feed) (f : Frame) :
    Prop where
  kept_eq : s.kept = f
  grounded : f.level 0 = 0
  number_eq : s.number = number
  refuses_eq : s.refuses = refuses

variable {number : UInt32} {refuses : Nat → Option String} {s : Feed} {f : Frame}

theorem mirrors_connect (number : UInt32) (refuses : Nat → Option String) :
    (connect number refuses).Mirrors number refuses Frame.dark :=
  ⟨rfl, Frame.level_dark 0, rfl, rfl⟩

theorem mirrors_ask (h : s.Mirrors number refuses f) (author : Author) (request : SinkRequest) :
    (ask s author request).1.Mirrors number refuses (ask f author request).1 := by
  obtain ⟨rfl, hground, hnumber, hrefuses⟩ := h
  rw [ask_eq, Frame.ask_eq]
  cases hf : request.fault with
  | some e => exact ⟨rfl, hground, hnumber, hrefuses⟩
  | none =>
    have hzero : (s.kept.apply request.write).level 0 = 0 := by
      rw [SinkRequest.level_apply_write hf, SinkRequest.level_zero hf hground]
    dsimp only
    rw [flush_eq]
    exact ⟨rfl, hzero, hnumber, hrefuses⟩

theorem mirrors_serve (h : s.Mirrors number refuses f) (requests : List (Author × SinkRequest)) :
    (serve s requests).Mirrors number refuses (serve f requests) := by
  induction requests generalizing s f with
  | nil => exact h
  | cons request rest ih => exact ih (mirrors_ask h request.1 request.2)

/-- Whatever has been asked of a new feed and of a dark frame in memory, and whatever did not get
through to the server, both hold the same levels, with zero at index 0.  A request at fault changes
neither and is answered alike by both, and nothing is sent.  Any other request leaves the same
levels in both, on the channels it addresses what it asks for and elsewhere what was there; memory
answers that it is done, and the feed hands exactly one message with the new levels to its
connection, and gives the reason if that does not get through. -/
theorem feed_mirrors_memory (number : UInt32) (refuses : Nat → Option String)
    (requests : List (Author × SinkRequest)) (author : Author) (request : SinkRequest) :
    let memory := serve Frame.dark requests
    let feed := serve (connect number refuses) requests
    let memory' := ask memory author request
    let feed' := ask feed author request
    frame feed = frame memory ∧ (frame memory).level 0 = 0 ∧ feed.refuses = refuses ∧
      match request.fault with
      | some e => memory' = (memory, .error e) ∧ feed' = (feed, .error e)
      | none =>
        memory'.2 = .ok () ∧ (∀ c, (frame memory'.1).level c = request.level (frame memory) c) ∧
          frame feed'.1 = frame memory'.1 ∧
          (∀ address values, request = .set address values →
            1 ≤ address.toNat ∧ address.toNat + values.length ≤ 513) ∧
          ∃ message, message.number = number ∧ feed.SendsOnce feed'.1 feed'.2 message := by
  intro memory feed memory' feed'
  have h : feed.Mirrors number refuses memory :=
    mirrors_serve (mirrors_connect number refuses) requests
  have h' : feed'.1.Mirrors number refuses memory'.1 := mirrors_ask h author request
  refine ⟨h.kept_eq, h.grounded, h.refuses_eq, ?_⟩
  have hmemory := Frame.ask_eq memory author request
  have hfeed := ask_eq feed author request
  cases hf : request.fault with
  | some e =>
    rw [hf] at hmemory hfeed
    exact ⟨hmemory, hfeed⟩
  | none =>
    rw [hf] at hmemory hfeed
    refine ⟨congrArg Prod.snd hmemory, ?_, h'.kept_eq, ?_, ?_⟩
    · intro c
      show memory'.1.level c = _
      rw [show memory'.1 = memory.apply request.write from congrArg Prod.fst hmemory]
      exact SinkRequest.level_apply_write hf memory c
    · rintro address values rfl
      exact SinkRequest.within_of_fault hf
    · refine ⟨⟨feed.number, (feed.kept.apply request.write).buffer.toList⟩, h.number_eq, ?_⟩
      rw [show feed' = _ from hfeed]
      exact feed.sendsOnce_flush (feed.kept.apply request.write)

end Feed

end LightingDesk
