import LightingDesk.Link.Heartbeat

/-!
# Whom heartbeats reach

Controllers are heard and heartbeats are sent, in any order and with any luck.  What has happened is
kept as a history, newest first, which tells for each heartbeat whom it was tried on and whether it
went out.  The history alone says where the next heartbeat goes: to the controller heard last,
unless three heartbeats in a row have failed on it since it was taken up; then to everyone.

    the tries of a heartbeat are what goes through the post       (tryEach_tries)
    after any calls the aim is the one the history says           (recalls_run)
    a controller heard alone never loses three in a row           (not_lost_three)
    all of this for any calls and any post                        (aim_follows)
-/

namespace LightingDesk

/-- Sends a datagram to several addresses in turn, and which of them could be sent. -/
def Post.tryEach (p : Post) (instant : Nat) (bytes : List UInt8) : List Address → Post × List Bool
  | [] => (p, [])
  | a :: rest =>
    let first := p.send instant a bytes
    let later := first.1.tryEach instant bytes rest
    (later.1, first.2 :: later.2)

theorem Post.send_taken (p : Post) (instant : Nat) (a : Address) (bytes : List UInt8) :
    (p.send instant a bytes).2 = p.takes p.attempts a := by
  unfold Post.send
  split <;> simp_all

theorem Post.send_send_taken (p : Post) (instant : Nat) (a b : Address) (bytes : List UInt8) :
    ((p.send instant a bytes).1.send instant b bytes).2 = p.takes (p.attempts + 1) b := by
  rw [Post.send_taken]
  unfold Post.send
  split <;> rfl

/-- The controller that is aimed at. -/
def Aim.host? : Aim → Option Ip
  | everyone => none
  | only host _ => some host

namespace Heartbeat

/-! ## What happens -/

/-- What a heartbeat is called for: a controller has been heard, the desk wants its mode told, or
the next one is due. -/
inductive Call
  | hear (host : Ip)
  | beat (mode : UInt8) (now : Nat)
  | pulse (now : Nat)
deriving DecidableEq, Repr

/-- One try to send a heartbeat, to one controller or to everyone, and whether it went out. -/
structure Try where
  host? : Option Ip
  taken : Bool
deriving DecidableEq, Repr

/-- A heartbeat that has been sent: its tries in order, and whether that was not an error. -/
structure Sending where
  tries : List Try
  ok : Bool
deriving DecidableEq, Repr

/-- What has happened to heartbeats. -/
inductive Deed
  | heard (host : Ip)
  | sent (s : Sending)
deriving DecidableEq, Repr

/-- The address of a controller or, without one, of everyone. -/
def addressFor (h : Heartbeat) : Option Ip → Address
  | none => h.broadcast
  | some host => h.addressOf host

/-- Whether the post takes the `k`-th datagram from now if it goes to a controller or, without one,
to everyone. -/
def goesOut (h : Heartbeat) (k : Nat) (host? : Option Ip) : Bool :=
  h.post.takes (h.post.attempts + k) (h.addressFor host?)

/-- The tries of the next heartbeat. -/
def tries (h : Heartbeat) : List Try :=
  match h.aim with
  | .everyone => [⟨none, h.goesOut 0 none⟩]
  | .only host failures =>
    if h.goesOut 0 (some host) then [⟨some host, true⟩]
    else if failures + 1 < Aim.failureLimit then [⟨some host, false⟩]
    else [⟨some host, false⟩, ⟨none, h.goesOut 1 none⟩]

/-- Answers a call. -/
def answer (h : Heartbeat) : Call → Heartbeat
  | .hear host => h.observe host
  | .beat mode now => (h.beat mode now).1
  | .pulse now => h.pulse now

/-- What happens on a call.  After a failure nothing is due any more. -/
def deeds (h : Heartbeat) : Call → List Deed
  | .hear host => [.heard host]
  | .beat mode now => [.sent ⟨h.tries, (h.beat mode now).2⟩]
  | .pulse now => if h.failed then [] else [.sent ⟨h.tries, !(h.pulse now).failed⟩]

/-- Answers calls, one after the other. -/
def run (h : Heartbeat) (calls : List Call) : Heartbeat := calls.foldl answer h

/-- What happens on calls, newest first. -/
def history (h : Heartbeat) : List Call → List Deed
  | [] => []
  | c :: rest => (h.answer c).history rest ++ h.deeds c

/-- Heartbeats of which none has been sent.  They start with the first one that is due. -/
def unsent (broadcast : Address) (interval : Nat) (mode : UInt8) (now : Nat) (post : Post) :
    Heartbeat := ⟨broadcast, .everyone, mode, interval, ⟨now⟩, false, post⟩

/-! ## What a history says -/

/-- The controller heard last. -/
def lastHeard : List Deed → Option Ip
  | [] => none
  | .heard host :: _ => some host
  | .sent _ :: t => lastHeard t

/-- How many heartbeats in a row have been lost on a controller up to now.  The count goes back over
times at which it was heard again, and ends with anything else. -/
def misses (host : Ip) : List Deed → Nat
  | [] => 0
  | .heard g :: t => if g = host then misses host t else 0
  | .sent s :: t => if s.tries = [⟨some host, false⟩] then misses host t + 1 else 0

/-- Whether a heartbeat failed on a controller on which the two before it had been lost, and nobody
has been heard since. -/
def Forsaken (host : Ip) (t : List Deed) : Prop :=
  ∃ after s before, t = after ++ .sent s :: before ∧ (∀ g, .heard g ∉ after) ∧
    s.tries.head? = some ⟨some host, false⟩ ∧ misses host before = 2

/-- Whether a controller is the one that heartbeats are for. -/
def Sought (host : Ip) (t : List Deed) : Prop := lastHeard t = some host ∧ ¬ Forsaken host t

/-- How a heartbeat may be sent after a history: to everyone if no controller is sought, and else to
that one; the third in a row that fails goes to everyone as well. -/
inductive Lawful (t : List Deed) : Sending → Prop
  | cast (taken : Bool) (nobody : ∀ host, ¬ Sought host t) : Lawful t ⟨[⟨none, taken⟩], taken⟩
  | reached {host : Ip} (sought : Sought host t) : Lawful t ⟨[⟨some host, true⟩], true⟩
  | lost {host : Ip} (sought : Sought host t) (few : misses host t < 2) :
      Lawful t ⟨[⟨some host, false⟩], true⟩
  | fallen {host : Ip} (taken : Bool) (sought : Sought host t) (many : misses host t = 2) :
      Lawful t ⟨[⟨some host, false⟩, ⟨none, taken⟩], taken⟩

/-- Whether every heartbeat of a history was sent as it may be after what came before. -/
def AllLawful (t : List Deed) : Prop :=
  ∀ after s before, t = after ++ .sent s :: before → Lawful before s

/-- Whether a heartbeat went nowhere without an error. -/
def Sending.Lost (s : Sending) : Prop := s.ok = true ∧ ∀ x ∈ s.tries, x.taken = false

/-- The heartbeats of a history. -/
def sendings (t : List Deed) : List Sending :=
  t.filterMap fun
    | .sent s => some s
    | .heard _ => none

variable {t : List Deed} {host : Ip}

theorem not_forsaken_heard (g : Ip) : ¬ Forsaken host (.heard g :: t) := by
  rintro ⟨after, s, before, ht, silent, -, -⟩
  cases after with
  | nil => cases ht
  | cons d after =>
    injection ht with hd
    exact silent g (hd ▸ .head _)

theorem forsaken_sent_iff {s : Sending} : Forsaken host (.sent s :: t) ↔
    Forsaken host t ∨ s.tries.head? = some ⟨some host, false⟩ ∧ misses host t = 2 := by
  constructor
  · rintro ⟨after, s', before, ht, silent, failed, two⟩
    cases after with
    | nil =>
      cases ht
      exact .inr ⟨failed, two⟩
    | cons d after =>
      injection ht with hd ht
      exact .inl ⟨after, s', before, ht, fun g hg => silent g (.tail _ hg), failed, two⟩
  · rintro (⟨after, s', before, rfl, silent, failed, two⟩ | ⟨failed, two⟩)
    · refine ⟨.sent s :: after, s', before, rfl, fun g hg => ?_, failed, two⟩
      cases hg with
      | tail _ hg => exact silent g hg
    · exact ⟨[], s, t, rfl, by simp, failed, two⟩

/-- The aim that a history says.  Nobody but the controller that is aimed at has misses. -/
inductive Recalls (t : List Deed) : Aim → Prop
  | everyone (gone : ∀ host, lastHeard t = some host → Forsaken host t)
      (clean : ∀ host, misses host t = 0) : Recalls t .everyone
  | only {host : Ip} (sought : Sought host t) (few : misses host t < Aim.failureLimit)
      (clean : ∀ g, g ≠ host → misses g t = 0) : Recalls t (.only host (misses host t))

/-! ## One call -/

theorem Recalls.hear {a : Aim} (h : Recalls t a) (host : Ip) :
    Recalls (.heard host :: t) (a.observe host) := by
  have sought : Sought host (.heard host :: t) := ⟨rfl, not_forsaken_heard host⟩
  have same : misses host (.heard host :: t) = misses host t := if_pos rfl
  have clean : ∀ g, g ≠ host → misses g (.heard host :: t) = 0 := fun g hg => if_neg hg.symm
  cases h with
  | everyone gone none =>
    have := Recalls.only sought (by rw [same, none]; decide) clean
    rwa [same, none] at this
  | @only known hs few others =>
    by_cases hk : known = host
    · subst hk
      rw [Aim.observe_again, ← same]
      exact .only sought (by rwa [same]) clean
    · have := Recalls.only sought (by rw [same, others host (Ne.symm hk)]; decide) clean
      rw [same, others host (Ne.symm hk)] at this
      simpa only [Aim.observe, if_neg hk] using this

/-- All that sending a heartbeat can do: the aim before, what is sent, and the aim after. -/
inductive Outcome : Aim → Sending → Aim → Prop
  | cast (taken : Bool) : Outcome .everyone ⟨[⟨none, taken⟩], taken⟩ .everyone
  | reached (host : Ip) (n : Nat) :
      Outcome (.only host n) ⟨[⟨some host, true⟩], true⟩ (.only host 0)
  | lost (host : Ip) (n : Nat) (few : n + 1 < Aim.failureLimit) :
      Outcome (.only host n) ⟨[⟨some host, false⟩], true⟩ (.only host (n + 1))
  | fallen (host : Ip) (n : Nat) (taken : Bool) (many : ¬ n + 1 < Aim.failureLimit) :
      Outcome (.only host n) ⟨[⟨some host, false⟩, ⟨none, taken⟩], taken⟩ .everyone

theorem outcome_send (h : Heartbeat) (now : Nat) :
    Outcome h.aim ⟨h.tries, (h.send now).2⟩ (h.send now).1.aim := by
  unfold tries send
  cases h.aim with
  | everyone =>
    have hok : (h.sendAll now).2 = h.goesOut 0 none := Post.send_taken ..
    rw [hok]
    exact .cast _
  | only host n =>
    have hok : (h.post.send now (h.addressOf host) (Wire.heartbeat h.mode)).2 =
        h.goesOut 0 (some host) := Post.send_taken ..
    simp only [hok]
    by_cases reached : h.goesOut 0 (some host) = true
    · simp only [if_pos reached]
      exact .reached host n
    · simp only [if_neg reached]
      by_cases few : n + 1 < Aim.failureLimit
      · simp only [if_pos few]
        exact .lost host n few
      · have second := h.post.send_send_taken now (h.addressOf host) h.broadcast
          (Wire.heartbeat h.mode)
        simp only [if_neg few, sendAll, second]
        exact .fallen host n _ few

/-- The tries of a heartbeat are what goes through the post. -/
theorem tryEach_tries (h : Heartbeat) (now : Nat) :
    h.post.tryEach now (Wire.heartbeat h.mode) (h.tries.map fun x => h.addressFor x.host?) =
      ((h.send now).1.post, h.tries.map (·.taken)) := by
  unfold tries send
  cases h.aim with
  | everyone =>
    have hok : (h.post.send now h.broadcast (Wire.heartbeat h.mode)).2 = h.goesOut 0 none :=
      Post.send_taken ..
    simp only [List.map_cons, List.map_nil, Post.tryEach, addressFor, hok, sendAll]
  | only host n =>
    have hok : (h.post.send now (h.addressOf host) (Wire.heartbeat h.mode)).2 =
        h.goesOut 0 (some host) := Post.send_taken ..
    simp only [hok]
    by_cases reached : h.goesOut 0 (some host) = true
    · rw [if_pos reached, if_pos reached]
      simp only [List.map_cons, List.map_nil, Post.tryEach, addressFor, hok, reached]
    · have failed : h.goesOut 0 (some host) = false := eq_false_of_ne_true reached
      rw [if_neg reached, if_neg reached]
      by_cases few : n + 1 < Aim.failureLimit
      · rw [if_pos few, if_pos few]
        simp only [List.map_cons, List.map_nil, Post.tryEach, addressFor, hok, failed]
      · have second : ((h.post.send now (h.addressOf host) (Wire.heartbeat h.mode)).1.send now
            h.broadcast (Wire.heartbeat h.mode)).2 = h.goesOut 1 none :=
          Post.send_send_taken ..
        rw [if_neg few, if_neg few]
        simp only [List.map_cons, List.map_nil, Post.tryEach, addressFor, hok, failed, second,
          sendAll]

/-- A heartbeat is sent as it may be after its history, and leaves the aim that the longer history
says. -/
theorem Recalls.send {a b : Aim} {s : Sending} (h : Recalls t a) (hs : Outcome a s b) :
    Lawful t s ∧ Recalls (.sent s :: t) b := by
  cases hs with
  | cast taken =>
    cases h with
    | everyone gone clean =>
      exact ⟨.cast taken fun host sought => sought.2 (gone host sought.1),
        .everyone (fun host last => forsaken_sent_iff.mpr (.inl (gone host last)))
          fun host => if_neg (by simp)⟩
  | reached host =>
    cases h with
    | only sought few clean =>
      have none : ∀ g, misses g (.sent ⟨[⟨some host, true⟩], true⟩ :: t) = 0 :=
        fun g => if_neg (by simp)
      have sought' : Sought host (.sent ⟨[⟨some host, true⟩], true⟩ :: t) :=
        ⟨sought.1, fun h => (forsaken_sent_iff.mp h).elim sought.2 fun failed => by simp at failed⟩
      have := Recalls.only sought' (by rw [none]; decide) fun g _ => none g
      rw [none] at this
      exact ⟨.reached sought, this⟩
  | lost host n few =>
    cases h with
    | only sought _ clean =>
      have one : misses host (.sent ⟨[⟨some host, false⟩], true⟩ :: t) = misses host t + 1 :=
        if_pos rfl
      have sought' : Sought host (.sent ⟨[⟨some host, false⟩], true⟩ :: t) :=
        ⟨sought.1, fun h => (forsaken_sent_iff.mp h).elim sought.2 fun failed => by
          simp [Aim.failureLimit, failed.2] at few⟩
      have := Recalls.only sought' (by rwa [one]) fun g hg =>
        if_neg (by simpa using hg.symm)
      rw [one] at this
      exact ⟨.lost sought (Nat.lt_of_succ_lt_succ few), this⟩
  | fallen host n taken many =>
    cases h with
    | only sought few clean =>
      have two : misses host t = 2 := by
        unfold Aim.failureLimit at few many
        omega
      refine ⟨.fallen taken sought two, .everyone (fun g last => ?_) fun g => if_neg (by simp)⟩
      cases Option.some.inj (sought.1.symm.trans last)
      exact forsaken_sent_iff.mpr (.inr ⟨rfl, two⟩)

@[simp] theorem allLawful_nil : AllLawful [] := fun after s before h => by simp at h

@[simp] theorem allLawful_heard {g : Ip} : AllLawful (.heard g :: t) ↔ AllLawful t := by
  refine ⟨fun h after s before ht => h (.heard g :: after) s before (by rw [ht]; rfl),
    fun h after s before ht => ?_⟩
  cases after with
  | nil => cases ht
  | cons d after =>
    injection ht with _ ht
    exact h after s before ht

@[simp] theorem allLawful_sent {s : Sending} :
    AllLawful (.sent s :: t) ↔ Lawful t s ∧ AllLawful t := by
  refine ⟨fun h => ⟨h [] s t rfl, fun after s' before ht => h (.sent s :: after) s' before
    (by rw [ht]; rfl)⟩, fun h after s' before ht => ?_⟩
  cases after with
  | nil =>
    cases ht
    exact h.1
  | cons d after =>
    injection ht with _ ht
    exact h.2 after s' before ht

theorem AllLawful.of_append {u : List Deed} (h : AllLawful (u ++ t)) : AllLawful t :=
  fun after s before ht => h (u ++ after) s before (by rw [ht, List.append_assoc])

theorem pulse_ended {h : Heartbeat} (ended : h.failed = true) (now : Nat) : h.pulse now = h :=
  if_pos ended

theorem pulse_going {h : Heartbeat} (going : ¬ h.failed = true) (now : Nat) :
    h.pulse now = { (send { h with pacer := ⟨now⟩ } now).1 with
      failed := !(send { h with pacer := ⟨now⟩ } now).2 } := if_neg going

/-- A call keeps what the history says. -/
theorem recalls_answer {h : Heartbeat} (ha : Recalls t h.aim) (hl : AllLawful t) (c : Call) :
    Recalls (h.deeds c ++ t) (h.answer c).aim ∧ AllLawful (h.deeds c ++ t) := by
  cases c with
  | hear host => exact ⟨ha.hear host, allLawful_heard.mpr hl⟩
  | beat mode now =>
    have := ha.send (outcome_send { h with mode } now)
    exact ⟨this.2, allLawful_sent.mpr ⟨this.1, hl⟩⟩
  | pulse now =>
    by_cases hf : h.failed = true
    · simp only [deeds, answer, if_pos hf, pulse_ended hf]
      exact ⟨ha, hl⟩
    · have := ha.send (outcome_send { h with pacer := ⟨now⟩ } now)
      simp only [deeds, answer, if_neg hf, pulse_going hf, Bool.not_not]
      exact ⟨this.2, allLawful_sent.mpr ⟨this.1, hl⟩⟩

theorem broadcast_send (h : Heartbeat) (now : Nat) : (h.send now).1.broadcast = h.broadcast := by
  unfold send
  split
  · rfl
  · dsimp only
    split
    · rfl
    · split <;> rfl

theorem broadcast_answer (h : Heartbeat) (c : Call) : (h.answer c).broadcast = h.broadcast := by
  cases c with
  | hear host => rfl
  | beat mode now => exact broadcast_send { h with mode } now
  | pulse now =>
    by_cases hf : h.failed = true
    · exact congrArg broadcast (pulse_ended hf now)
    · exact (congrArg broadcast (pulse_going hf now)).trans
        (broadcast_send { h with pacer := ⟨now⟩ } now)

/-- What a heartbeat is said to have been tried on is what has gone through the post. -/
theorem tryEach_answer {h : Heartbeat} {c : Call} {s : Sending} (hs : .sent s ∈ h.deeds c) :
    ∃ instant bytes, h.post.tryEach instant bytes (s.tries.map fun x => h.addressFor x.host?) =
      ((h.answer c).post, s.tries.map (·.taken)) := by
  cases c with
  | hear host => simp [deeds] at hs
  | beat mode now =>
    cases List.mem_singleton.mp hs
    exact ⟨now, _, tryEach_tries { h with mode } now⟩
  | pulse now =>
    by_cases hf : h.failed = true
    · simp [deeds, hf] at hs
    · rw [deeds, if_neg hf] at hs
      cases List.mem_singleton.mp hs
      have := tryEach_tries { h with pacer := ⟨now⟩ } now
      exact ⟨now, _, this.trans (by rw [answer, pulse_going hf]; rfl)⟩

/-! ## Any calls -/

/-- After any calls the aim is the one that the history says. -/
theorem recalls_run {h : Heartbeat} (ha : Recalls t h.aim) (hl : AllLawful t) (calls : List Call) :
    Recalls (h.history calls ++ t) (h.run calls).aim ∧ AllLawful (h.history calls ++ t) := by
  induction calls generalizing h t with
  | nil => exact ⟨ha, hl⟩
  | cons c rest ih =>
    obtain ⟨ha, hl⟩ := recalls_answer ha hl c
    have := ih ha hl
    rwa [← List.append_assoc] at this

theorem broadcast_run (h : Heartbeat) (calls : List Call) :
    (h.run calls).broadcast = h.broadcast := by
  induction calls generalizing h with
  | nil => rfl
  | cons c rest ih => exact (ih _).trans (broadcast_answer h c)

theorem recalls_nil : Recalls [] .everyone :=
  .everyone (fun host last => by cases last) fun host => rfl

/-! ## Losses -/

theorem Lawful.lost_iff {s : Sending} (h : Lawful t s) :
    s.Lost ↔ ∃ host, s = ⟨[⟨some host, false⟩], true⟩ := by
  cases h <;> simp [Sending.Lost]

theorem Lawful.ok_iff {s : Sending} (h : Lawful t s) : s.ok = false ↔ ⟨none, false⟩ ∈ s.tries := by
  cases h <;> simp [eq_comm]

theorem misses_le (hl : AllLawful t) (host : Ip) : misses host t ≤ 2 := by
  induction t with
  | nil => exact Nat.zero_le 2
  | cons d t ih =>
    cases d with
    | heard g =>
      unfold misses
      split
      · exact ih (allLawful_heard.mp hl)
      · exact Nat.zero_le 2
    | sent s =>
      obtain ⟨hs, hl⟩ := allLawful_sent.mp hl
      unfold misses
      split
      · rename_i htries
        cases hs <;> simp at htries
        subst htries
        assumption
      · exact Nat.zero_le 2

theorem heard_of_lastHeard (h : lastHeard t = some host) : .heard host ∈ t := by
  induction t with
  | nil => cases h
  | cons d t ih =>
    cases d with
    | heard g =>
      cases h
      exact .head _
    | sent s => exact .tail _ (ih h)

/-- When one controller alone is heard, the heartbeats lost last are misses of it. -/
theorem length_le_misses {l : List Sending} (hl : AllLawful t)
    (alone : ∀ g, .heard g ∈ t → g = host) (hp : l <+: sendings t) (lost : ∀ s ∈ l, s.Lost) :
    l.length ≤ misses host t := by
  induction t generalizing l with
  | nil => simp_all [sendings]
  | cons d t ih =>
    cases d with
    | heard g =>
      have same : misses host (.heard g :: t) = misses host t := if_pos (alone g (.head _))
      rw [same]
      exact ih (allLawful_heard.mp hl) (fun g hg => alone g (.tail _ hg)) hp lost
    | sent s =>
      obtain ⟨hs, earlier⟩ := allLawful_sent.mp hl
      have alone' : ∀ g, .heard g ∈ t → g = host := fun g hg => alone g (.tail _ hg)
      cases l with
      | nil => exact Nat.zero_le _
      | cons s' l =>
        obtain ⟨rfl, hp'⟩ := List.cons_prefix_cons.mp hp
        obtain ⟨hlost, lost⟩ := List.forall_mem_cons.mp lost
        have more := ih earlier alone' hp' lost
        obtain ⟨g, rfl⟩ := hs.lost_iff.mp hlost
        have sought : Sought g t := by cases hs; assumption
        obtain rfl := alone' g (heard_of_lastHeard sought.1)
        have one : misses g (.sent ⟨[⟨some g, false⟩], true⟩ :: t) = misses g t + 1 := if_pos rfl
        rw [one]
        exact Nat.succ_le_succ more

/-- When one controller alone is heard, three heartbeats in a row are never lost. -/
theorem not_lost_three (hl : AllLawful t) (alone : ∀ g, .heard g ∈ t → g = host)
    {a b c : Sending} (row : [a, b, c] <:+: sendings t) : ¬ (a.Lost ∧ b.Lost ∧ c.Lost) := by
  rintro ⟨ha, hb, hc⟩
  obtain ⟨newer, older, ht⟩ := row
  rw [List.append_assoc] at ht
  obtain ⟨after, before, rfl, -, hbefore⟩ := List.filterMap_eq_append_iff.mp ht.symm
  have three : 3 ≤ misses host before :=
    length_le_misses hl.of_append (fun g hg => alone g (List.mem_append_right _ hg))
      ⟨older, hbefore.symm⟩ (by simp [ha, hb, hc])
  have := misses_le hl.of_append host
  omega

/-! ## The aim -/

theorem Recalls.host?_iff {a : Aim} (h : Recalls t a) (host : Ip) :
    a.host? = some host ↔ lastHeard t = some host ∧ ¬ Forsaken host t := by
  cases h with
  | everyone gone clean =>
    refine ⟨nofun, fun sought => ?_⟩
    exact absurd (gone host sought.1) sought.2
  | @only known sought few clean =>
    constructor
    · intro h
      cases h
      exact sought
    · rintro ⟨last, -⟩
      exact sought.1.symm.trans last

theorem Recalls.failures_le {a : Aim} (h : Recalls t a) : a.failures ≤ 2 := by
  cases h with
  | everyone gone clean => exact Nat.zero_le 2
  | only sought few clean => exact Nat.le_of_lt_succ few

theorem failures_of_host?_eq_none {a : Aim} (h : a.host? = none) : a.failures = 0 := by
  cases a with
  | everyone => rfl
  | only host n => cases h

theorem observe_of_host? {h : Heartbeat} (aimed : h.aim.host? = some host) :
    h.observe host = h := by
  obtain ⟨broadcast, aim, mode, interval, pacer, failed, post⟩ := h
  cases aim with
  | everyone => cases aimed
  | only known n =>
    cases aimed
    simp only [observe, Aim.observe_again]

/-- Whatever is called for and whatever the post takes, heartbeats aim at the controller heard last
unless three in a row have failed on it, count fewer than three failures, and lose no three in a row
while one controller alone is heard. -/
theorem aim_follows (broadcast : Address) (interval : Nat) (mode : UInt8) (now : Nat) (post : Post)
    (calls : List Call) :
    let h := (start broadcast interval mode now post).run calls
    let t := (unsent broadcast interval mode now post).history (.pulse now :: calls)
    (h.aim.failures ≤ 2 ∧ (h.aim.host? = none → h.aim.failures = 0)) ∧
    (h.addressFor none = broadcast ∧
      ∀ host, h.addressFor (some host) = ⟨host, broadcast.port, 0⟩) ∧
    (∀ host, h.aim.host? = some host ↔ lastHeard t = some host ∧ ¬ Forsaken host t) ∧
    (∀ host, h.aim.host? = some host → h.observe host = h) ∧
    (∀ c s, .sent s ∈ h.deeds c → ∃ instant bytes,
      h.post.tryEach instant bytes (s.tries.map fun x => h.addressFor x.host?) =
        ((h.answer c).post, s.tries.map (·.taken))) ∧
    AllLawful t ∧
    (∀ s, .sent s ∈ t → (s.ok = false ↔ ⟨none, false⟩ ∈ s.tries) ∧
      (s.Lost ↔ ∃ host, s = ⟨[⟨some host, false⟩], true⟩)) ∧
    ∀ host, (∀ g, .heard g ∈ t → g = host) →
      ∀ a b c, [a, b, c] <:+: sendings t → ¬ (a.Lost ∧ b.Lost ∧ c.Lost) := by
  intro h t
  obtain ⟨ha, hl⟩ : Recalls t h.aim ∧ AllLawful t := by
    have := recalls_run (h := unsent broadcast interval mode now post) recalls_nil allLawful_nil
      (.pulse now :: calls)
    rwa [List.append_nil] at this
  have hb : h.broadcast = broadcast :=
    broadcast_run (unsent broadcast interval mode now post) (.pulse now :: calls)
  have hosts : ∀ host, h.addressFor (some host) = ⟨host, broadcast.port, 0⟩ := fun host => by
    rw [addressFor, addressOf, hb]
  have ends : ∀ s, .sent s ∈ t → (s.ok = false ↔ ⟨none, false⟩ ∈ s.tries) ∧
      (s.Lost ↔ ∃ host, s = ⟨[⟨some host, false⟩], true⟩) := fun s hs => by
    obtain ⟨after, before, ht⟩ := List.append_of_mem hs
    have lawful := hl after s before ht
    exact ⟨lawful.ok_iff, lawful.lost_iff⟩
  exact ⟨⟨ha.failures_le, failures_of_host?_eq_none⟩, ⟨hb, hosts⟩, ha.host?_iff,
    fun _ => observe_of_host?, fun _ _ => tryEach_answer, hl, ends,
    fun _ alone _ _ _ => not_lost_three hl alone⟩

/-- A controller that is heard but cannot be reached: hearing it again does not start the count
anew, and the third failure goes to everyone. -/
example :
    let absent : Ip := .v4 10 0 0 7
    let post := Post.fresh fun _ a => a.ip ≠ absent
    (unsent ⟨.v4 10 0 0 255, 9000, 0⟩ 1000 0 0 post).history
        [.pulse 0, .hear absent, .beat 1 10, .hear absent, .beat 0 20, .pulse 1000] =
      [.sent ⟨[⟨some absent, false⟩, ⟨none, true⟩], true⟩, .sent ⟨[⟨some absent, false⟩], true⟩,
        .heard absent, .sent ⟨[⟨some absent, false⟩], true⟩, .heard absent,
        .sent ⟨[⟨none, true⟩], true⟩] := by
  decide

end Heartbeat

end LightingDesk
