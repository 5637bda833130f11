import BitSerial.Bank.Request
import BitSerial.Proofs.Bank.Passing

/-!
# Channels on their own

Channels share a name, an order and nothing else.  A request changes the channel that it
addresses and reads no other one, so of a history of requests each channel makes what it would
make of its own part of them, whatever is pending or switched off elsewhere.
-/

namespace BitSerial.Bank

variable {channels words : Nat} {channel : Fin channels} {left right bank : Bank channels words}
  {request : Request}

/-- Ask a bank for one thing after the other. -/
def serveAll : List Request → Bank channels words →
    List (Except BankError (Reply words)) × Bank channels words
  | [], bank => ([], bank)
  | request :: rest, bank =>
      let (reply, after) := bank.serve request
      let (replies, last) := serveAll rest after
      (reply :: replies, last)

/-- Whether a request may change a channel or is answered from it alone. -/
def Request.concerns (channel : Nat) : Request → Bool
  | .pulse other | .pulses other _ | .align other _ | .schedule other _ | .front other
  | .setRefresh other _ | .clock other | .line other | .read other _ | .write other _ _
  | .peek other _ | .dump other => other = channel
  | .contents => false
  | .reset => true

/-- The answers to the requests of a history that concern a channel. -/
def repliesAbout (channel : Nat) (history : List Request) (bank : Bank channels words) :
    List (Except BankError (Reply words)) :=
  ((history.zip (bank.serveAll history).1).filter fun asked => asked.1.concerns channel).map
    Prod.snd

/-- Banks that do not differ in what a channel knows of its bank. -/
structure AgreeOn (channel : Fin channels) (left right : Bank channels words) : Prop where
  name : left.name = right.name
  order : left.order = right.order
  line : left.line channel = right.line channel

theorem serveAll_cons (request : Request) (rest : List Request) (bank : Bank channels words) :
    bank.serveAll (request :: rest) =
      ((bank.serve request).1 :: ((bank.serve request).2.serveAll rest).1,
        ((bank.serve request).2.serveAll rest).2) :=
  rfl

theorem serveAll_append (before behind : List Request) (bank : Bank channels words) :
    (bank.serveAll (before ++ behind)).2 =
      ((bank.serveAll before).2.serveAll behind).2 := by
  induction before generalizing bank with
  | nil => rfl
  | cons request rest ih => exact ih (bank.serve request).2

theorem repliesAbout_cons (channel : Nat) (request : Request) (rest : List Request)
    (bank : Bank channels words) :
    bank.repliesAbout channel (request :: rest) =
      if request.concerns channel then
        (bank.serve request).1 :: (bank.serve request).2.repliesAbout channel rest
      else
        (bank.serve request).2.repliesAbout channel rest := by
  rw [repliesAbout, serveAll_cons, List.zip_cons_cons, List.filter_cons]
  split <;> rfl

/-! ## Requests about other channels -/

namespace AgreeOn

theorem refl (channel : Fin channels) (bank : Bank channels words) : AgreeOn channel bank bank :=
  ⟨rfl, rfl, rfl⟩

theorem trans {middle : Bank channels words} (front : AgreeOn channel left middle)
    (behind : AgreeOn channel middle right) : AgreeOn channel left right :=
  ⟨front.name.trans behind.name, front.order.trans behind.order, front.line.trans behind.line⟩

end AgreeOn

/-- What is done to the line of another channel is not noticed. -/
theorem agreeOn_setLine_of_ne {other : Fin channels} (apart : other ≠ channel)
    (line : DelayLine (words * 40)) : AgreeOn channel (bank.setLine other line) bank :=
  ⟨rfl, rfl, line_setLine_of_ne bank apart line⟩

theorem agreeOn_onChannel_of_ne {number : Nat} (apart : number ≠ channel)
    {act : Fin channels → Reply words × Bank channels words}
    (acts : ∀ other ≠ channel, AgreeOn channel (act other).2 bank) :
    AgreeOn channel (bank.onChannel number act).2 bank := by
  rw [onChannel, channel?]
  by_cases inside : number < channels
  · rw [dif_pos inside]
    exact acts ⟨number, inside⟩ fun same => apart (congrArg Fin.val same)
  · rw [dif_neg inside]
    exact .refl channel bank

theorem agreeOn_onPlace_of_ne {number : Nat} (apart : number ≠ channel) (word : Nat)
    {act : Fin channels → Fin words → Reply words × Bank channels words}
    (acts : ∀ other ≠ channel, ∀ word, AgreeOn channel (act other word).2 bank) :
    AgreeOn channel (bank.onPlace number word act).2 bank := by
  rw [onPlace, place?, channel?]
  by_cases inside : number < channels
  · rw [dif_pos inside]
    by_cases wordInside : word < words
    · simp only [dif_pos wordInside]
      exact acts ⟨number, inside⟩ (fun same => apart (congrArg Fin.val same)) _
    · simp only [dif_neg wordInside]
      exact .refl channel bank
  · rw [dif_neg inside]
    exact .refl channel bank

/-- A channel does not notice what concerns others. -/
theorem agreeOn_serve (apart : request.concerns channel = false) :
    AgreeOn channel (bank.serve request).2 bank := by
  cases request with
  | contents => exact .refl channel bank
  | reset => cases apart
  | pulses number count =>
      cases count with
      | zero => exact .refl channel bank
      | succ count =>
          exact agreeOn_onChannel_of_ne (of_decide_eq_false apart) fun other otherApart =>
            agreeOn_setLine_of_ne otherApart _
  | pulse number | schedule number bit | setRefresh number refresh =>
      exact agreeOn_onChannel_of_ne (of_decide_eq_false apart) fun other otherApart =>
        agreeOn_setLine_of_ne otherApart _
  | front number | clock number | line number | dump number =>
      exact agreeOn_onChannel_of_ne (of_decide_eq_false apart) fun other _ => .refl channel bank
  | align number word =>
      exact agreeOn_onPlace_of_ne (of_decide_eq_false apart) word fun other otherApart _ =>
        agreeOn_setLine_of_ne otherApart _
  | read number word | write number word value =>
      exact agreeOn_onPlace_of_ne (of_decide_eq_false apart) word fun other otherApart _ =>
        (agreeOn_setLine_of_ne otherApart _).trans (agreeOn_setLine_of_ne otherApart _)
  | peek number word =>
      exact agreeOn_onPlace_of_ne (of_decide_eq_false apart) word fun other _ _ =>
        .refl channel bank

/-! ## Requests about the channel -/

theorem agreeOn_onChannel
    {actLeft actRight : Fin channels → Reply words × Bank channels words}
    (reply : (actLeft channel).1 = (actRight channel).1)
    (after : AgreeOn channel (actLeft channel).2 (actRight channel).2) :
    (left.onChannel channel actLeft).1 = (right.onChannel channel actRight).1 ∧
      AgreeOn channel (left.onChannel channel actLeft).2 (right.onChannel channel actRight).2 := by
  rw [onChannel, onChannel, channel?, channel?, dif_pos channel.isLt,
    dif_pos channel.isLt]
  exact ⟨congrArg Except.ok reply, after⟩

namespace AgreeOn

theorem setLine (agree : AgreeOn channel left right) (line : DelayLine (words * 40)) :
    AgreeOn channel (left.setLine channel line) (right.setLine channel line) where
  name := agree.name
  order := agree.order
  line := by rw [line_setLine, line_setLine]

theorem modifyLine (agree : AgreeOn channel left right)
    (change : DelayLine (words * 40) → DelayLine (words * 40)) :
    AgreeOn channel (left.modifyLine channel change) (right.modifyLine channel change) := by
  rw [Bank.modifyLine, Bank.modifyLine, agree.line]
  exact agree.setLine _

theorem position (agree : AgreeOn channel left right) :
    left.position channel = right.position channel :=
  congrArg (fun line : DelayLine (words * 40) => line.head.val) agree.line

theorem waitFor (agree : AgreeOn channel left right) (word : Fin words) :
    left.waitFor channel word = right.waitFor channel word := by
  rw [waitFor_eq, waitFor_eq, agree.position]

theorem align (agree : AgreeOn channel left right) (word : Fin words) :
    AgreeOn channel (left.align channel word) (right.align channel word) := by
  rw [Bank.align, Bank.align, agree.waitFor]
  exact agree.modifyLine _

theorem peekWord (agree : AgreeOn channel left right) :
    left.peekWord channel = right.peekWord channel := by
  funext word
  rw [peekWord_eq_segment, peekWord_eq_segment, agree.line, agree.order]

theorem readWord (agree : AgreeOn channel left right) (word : Fin words) :
    (left.readWord channel word).1 = (right.readWord channel word).1 ∧
      AgreeOn channel (left.readWord channel word).2 (right.readWord channel word).2 := by
  have aligned := agree.align word
  rw [Bank.readWord, Bank.readWord, aligned.line, aligned.order]
  exact ⟨rfl, aligned.setLine _⟩

theorem writeWord (agree : AgreeOn channel left right) (word : Fin words) (value : Word) :
    AgreeOn channel (left.writeWord channel word value) (right.writeWord channel word value) := by
  rw [Bank.writeWord, Bank.writeWord, agree.order]
  exact (agree.align word).modifyLine _

theorem onPlace (agree : AgreeOn channel left right) (word : Nat)
    {actLeft actRight : Fin channels → Fin words → Reply words × Bank channels words}
    (reply : ∀ word, (actLeft channel word).1 = (actRight channel word).1)
    (after : ∀ word, AgreeOn channel (actLeft channel word).2 (actRight channel word).2) :
    (left.onPlace channel word actLeft).1 = (right.onPlace channel word actRight).1 ∧
      AgreeOn channel (left.onPlace channel word actLeft).2
        (right.onPlace channel word actRight).2 := by
  rw [Bank.onPlace, Bank.onPlace, place?, place?, channel?, channel?, dif_pos channel.isLt,
    dif_pos channel.isLt]
  by_cases inside : word < words
  · simp only [dif_pos inside]
    exact ⟨congrArg Except.ok (reply _), after _⟩
  · simp only [dif_neg inside]
    rw [agree.name]
    exact ⟨rfl, agree⟩

/-- Of what concerns a channel, banks that agree on it make the same. -/
theorem serve (agree : AgreeOn channel left right) (concerns : request.concerns channel = true) :
    (left.serve request).1 = (right.serve request).1 ∧
      AgreeOn channel (left.serve request).2 (right.serve request).2 := by
  have front : (left.line channel).front = (right.line channel).front := by rw [agree.line]
  cases request with
  | contents => cases concerns
  | reset =>
      refine ⟨rfl, agree.name, agree.order, ?_⟩
      show left.reset.line channel = right.reset.line channel
      rw [line_reset, line_reset, agree.line]
  | pulse number =>
      obtain rfl := of_decide_eq_true concerns
      exact agreeOn_onChannel (congrArg Reply.bit front) (agree.modifyLine _)
  | pulses number count =>
      obtain rfl := of_decide_eq_true concerns
      cases count with
      | zero => exact ⟨rfl, agree⟩
      | succ count =>
          refine agreeOn_onChannel ?_ ?_
          · dsimp only
            rw [agree.line]
          · dsimp only
            rw [agree.line]
            exact agree.setLine _
  | align number word =>
      obtain rfl := of_decide_eq_true concerns
      exact agree.onPlace word (fun word => congrArg Reply.count (agree.waitFor word)) agree.align
  | schedule number bit =>
      obtain rfl := of_decide_eq_true concerns
      exact agreeOn_onChannel rfl (agree.modifyLine _)
  | front number =>
      obtain rfl := of_decide_eq_true concerns
      exact agreeOn_onChannel (congrArg Reply.bit front) agree
  | setRefresh number refresh =>
      obtain rfl := of_decide_eq_true concerns
      exact agreeOn_onChannel rfl (agree.modifyLine _)
  | clock number =>
      obtain rfl := of_decide_eq_true concerns
      exact agreeOn_onChannel
        (congrArg (fun place => Reply.count (place / 40)) agree.position) agree
  | line number =>
      obtain rfl := of_decide_eq_true concerns
      exact agreeOn_onChannel (congrArg Reply.line agree.line) agree
  | read number word =>
      obtain rfl := of_decide_eq_true concerns
      exact agree.onPlace word (fun word => congrArg Reply.word (agree.readWord word).1)
        fun word => (agree.readWord word).2
  | write number word value =>
      obtain rfl := of_decide_eq_true concerns
      exact agree.onPlace word (fun _ => rfl) fun word => agree.writeWord word value
  | peek number word =>
      obtain rfl := of_decide_eq_true concerns
      exact agree.onPlace word (fun word => congrArg Reply.word (congrFun agree.peekWord word))
        fun _ => agree
  | dump number =>
      obtain rfl := of_decide_eq_true concerns
      exact agreeOn_onChannel
        (congrArg (fun content => Reply.dump ((List.finRange words).map content)) agree.peekWord)
        agree

/-- Of a whole history a channel makes what it makes of the requests that concern it. -/
theorem serveAll (agree : AgreeOn channel left right) (history : List Request) :
    left.repliesAbout channel history =
        (right.serveAll (history.filter (Request.concerns channel))).1 ∧
      AgreeOn channel (left.serveAll history).2
        (right.serveAll (history.filter (Request.concerns channel))).2 := by
  induction history generalizing left right with
  | nil => exact ⟨rfl, agree⟩
  | cons request rest ih =>
      rw [repliesAbout_cons, serveAll_cons, List.filter_cons]
      cases concerns : request.concerns channel with
      | true =>
          obtain ⟨reply, after⟩ := agree.serve concerns
          obtain ⟨replies, last⟩ := ih after
          rw [if_pos rfl, if_pos rfl, serveAll_cons, reply, replies]
          exact ⟨rfl, last⟩
      | false =>
          rw [if_neg Bool.false_ne_true, if_neg Bool.false_ne_true]
          exact ih ((agreeOn_serve concerns).trans agree)

end AgreeOn

end BitSerial.Bank
