import DabStar.Galois
import DabStar.RingBuffer

/-! The reader of the SpyServer connection (devices/spy_server/spyserver_handler.cpp) polls the
ring buffer of the TCP thread for the 20 bytes of a header, then for the body. A poll is one
look at the ring buffer. -/
namespace DabStar
open List

structure Message where
  header : List U8
  body : List U8
  deriving DecidableEq, Repr

namespace Message

def bodySize (header : List U8) : Nat :=
  (header.getD 16 0#8).toNat + 2 ^ 8 * (header.getD 17 0#8).toNat + 2 ^ 16 * (header.getD 18 0#8).toNat + 2 ^ 24 * (header.getD 19 0#8).toNat

structure WellFormed (m : Message) : Prop where
  header : m.header.length = 20
  size : bodySize m.header = m.body.length
  fits : m.body.length ≤ 64 * 32768

def bytes (m : Message) : List U8 := m.header ++ m.body

end Message

def stream (ms : List Message) : List U8 := ms.flatMap Message.bytes

inductive SpyPhase where
  | header
  | body (header : List U8) (filler : Int)
  deriving DecidableEq, Repr

structure SpyServerHandler where
  inBuffer : RingBuffer U8
  buffer : List U8
  phase : SpyPhase
  dispatched : List Message

namespace SpyServerHandler

def newSpyServerHandler : SpyServerHandler := ⟨.newRingBuffer (64 * 32768),replicate (64 * 1024) 0#8,.header,[]⟩

section Code
variable (s : SpyServerHandler)

def arrive (bytes : List U8) : SpyServerHandler := { s with inBuffer := (s.inBuffer.putDataIntoRingBuffer bytes).1 }

def readHeader : SpyServerHandler :=
  if s.inBuffer.getRingBufferReadAvailable < 20 then s
  else
    let (inBuffer, header, _) := s.inBuffer.getDataFromRingBuffer 20
    { s with
      inBuffer
      buffer := s.buffer ++ replicate (Message.bodySize header - s.buffer.length) 0#8
      phase := .body header 0 }

def sizeOf (header : List U8) : Int := (Message.bodySize header : Int).bmod (2 ^ 32)

def readBody (header : List U8) (filler : Int) : SpyServerHandler :=
  if (s.inBuffer.getRingBufferReadAvailable : Int) > (sizeOf header).tdiv 2 then
    let (inBuffer, data, numRead) := s.inBuffer.getDataFromRingBuffer (sizeOf header - filler)
    let buffer := Lib.Ring.copy s.buffer 0 data
    if filler + numRead ≥ sizeOf header then
      { s with inBuffer, buffer, phase := .header, dispatched := s.dispatched ++ [⟨header,buffer.take (Message.bodySize header)⟩] }
    else { s with inBuffer, buffer, phase := .body header (filler + numRead) }
  else s

def poll : SpyServerHandler :=
  match s.phase with
  | .header => s.readHeader
  | .body header filler => s.readBody header filler

end Code

inductive Event where
  | arrive (bytes : List U8)
  | poll
  deriving DecidableEq, Repr

def step (s : SpyServerHandler) : Event → SpyServerHandler
  | .arrive bytes => s.arrive bytes
  | .poll => s.poll

def run (s : SpyServerHandler) (events : List Event) : SpyServerHandler := events.foldl step s

def polls (k : Nat) (s : SpyServerHandler) : SpyServerHandler := poll^[k] s

def arrivals : List Event → List U8
  | [] => []
  | .arrive bytes :: rest => bytes ++ arrivals rest
  | .poll :: rest => arrivals rest

def Along (condition : SpyServerHandler → Event → Prop) (s : SpyServerHandler) : List Event → Prop
  | [] => True
  | e :: rest => condition s e ∧ Along condition (s.step e) rest

def Fitting (s : SpyServerHandler) : Event → Prop
  | .arrive bytes => bytes.length ≤ s.inBuffer.getRingBufferWriteAvailable
  | .poll => True

instance (s : SpyServerHandler) (e : Event) : Decidable (s.Fitting e) := by cases e <;> (unfold Fitting; infer_instance)

instance instDecidableAlong (condition : SpyServerHandler → Event → Prop) [∀ s e,Decidable (condition s e)] :
    ∀ (s : SpyServerHandler) (events : List Event), Decidable (Along condition s events)
  | _, [] => isTrue trivial
  | s, e :: rest =>
    have := instDecidableAlong condition (s.step e) rest
    inferInstanceAs (Decidable (condition s e ∧ Along condition (s.step e) rest))

def Whole (s : SpyServerHandler) : Event → Prop
  | .arrive _ => True
  | .poll =>
    match s.phase with
    | .header => True
    | .body header filler => (s.inBuffer.getRingBufferReadAvailable : Int) > (sizeOf header).tdiv 2 →
        sizeOf header - filler ≤ s.inBuffer.getRingBufferReadAvailable

def Fresh (s : SpyServerHandler) : Prop := ∀ header filler, s.phase = .body header filler → filler = 0

inductive Reading (future : List U8) (s : SpyServerHandler) : List Message → Prop where
  | header {rest : List Message} {q : List U8} (phase : s.phase = .header) (holds : s.inBuffer.Holds q)
      (whole : q ++ future = stream rest) : Reading future s rest
  | body {m : Message} {rest : List Message} {q : List U8} {filler : Nat} (phase : s.phase = .body m.header filler)
      (holds : s.inBuffer.Holds q) (filled : filler ≤ m.body.length) (room : m.body.length ≤ s.buffer.length)
      (whole : q ++ future = m.body.drop filler ++ stream rest) : Reading future s (m :: rest)

variable {s : SpyServerHandler} {future q tail : List U8} {m : Message} {rest : List Message} {filler : Nat}

theorem sizeExact (formed : m.WellFormed) : sizeOf m.header = m.body.length := by
  have fits := formed.fits
  unfold sizeOf
  rw [formed.size,Int.bmod_eq_of_le] <;> omega

theorem halfExact (formed : m.WellFormed) : (sizeOf m.header).tdiv 2 = ((m.body.length / 2 : Nat) : Int) := by
  rw [sizeExact formed]
  exact (Int.ofNat_tdiv ..).symm

theorem streamCons : stream (m :: rest) = m.header ++ (m.body ++ stream rest) := by simp [stream,Message.bytes]

theorem arriveHolds {bytes : List U8} (holds : s.inBuffer.Holds q) (fits : s.Fitting (.arrive bytes)) :
    (s.arrive bytes).inBuffer.Holds (q ++ bytes) := by
  have next := (holds.put bytes).2
  rwa [take_of_length_le (holds.writeAvailable ▸ fits)] at next

theorem arriveReading {bytes : List U8} (reading : Reading (bytes ++ future) s rest) (fits : s.Fitting (.arrive bytes)) :
    Reading future (s.arrive bytes) rest := by
  cases reading with
  | header phase holds whole => exact .header phase (arriveHolds holds fits) (by rw [append_assoc,whole])
  | body phase holds filled room whole => exact .body phase (arriveHolds holds fits) filled room (by rw [append_assoc,whole])

theorem headerWaits (phase : s.phase = .header) (holds : s.inBuffer.Holds q) (few : q.length < 20) : s.poll = s := by
  unfold poll
  rw [phase]
  dsimp only [readHeader]
  rw [holds.readAvailable,if_pos few]

theorem headerRead (phase : s.phase = .header) (holds : s.inBuffer.Holds q) (formed : m.WellFormed)
    (whole : q ++ future = m.header ++ (m.body ++ tail)) (enough : 20 ≤ q.length) :
    ∃ q', s.poll.phase = .body m.header 0 ∧ s.poll.dispatched = s.dispatched ∧ s.poll.inBuffer.Holds q' ∧
      m.body.length ≤ s.poll.buffer.length ∧ q' ++ future = m.body ++ tail := by
  obtain ⟨result,next⟩ := holds.get 20
  have front : q.take 20 = m.header := by
    have taken := congrArg (List.take 20) whole
    rwa [take_append_of_le_length enough,take_left' formed.header] at taken
  have back : q.drop 20 ++ future = m.body ++ tail := by
    have dropped := congrArg (List.drop 20) whole
    rwa [drop_append_of_le_length enough,drop_left' formed.header] at dropped
  have data : (s.inBuffer.getDataFromRingBuffer 20).2.1 = m.header := by
    rw [result]
    exact front
  unfold poll
  rw [phase]
  dsimp only [readHeader]
  rw [holds.readAvailable,if_neg (by omega)]
  refine ⟨q.drop 20,by rw [data],rfl,next,?_,back⟩
  dsimp only
  rw [data,formed.size,length_append,length_replicate]
  omega

theorem bodyWaits (phase : s.phase = .body m.header filler) (holds : s.inBuffer.Holds q) (formed : m.WellFormed)
    (few : q.length ≤ m.body.length / 2) : s.poll = s := by
  have waits : ¬ (s.inBuffer.getRingBufferReadAvailable : Int) > (sizeOf m.header).tdiv 2 := by
    rw [holds.readAvailable,halfExact formed]
    omega
  unfold poll
  rw [phase]
  exact if_neg waits

section Read
variable (phase : s.phase = .body m.header filler) (holds : s.inBuffer.Holds q) (formed : m.WellFormed) (filled : filler ≤ m.body.length)
  (many : m.body.length / 2 < q.length)
include phase holds formed filled many

theorem bodyRead : ∃ after : SpyServerHandler, after.inBuffer.Holds (q.drop (m.body.length - filler)) ∧
    after.buffer = Lib.Ring.copy s.buffer 0 (q.take (m.body.length - filler)) ∧ s.poll =
      if m.body.length ≤ filler + min (m.body.length - filler) q.length then
        { after with phase := .header, dispatched := s.dispatched ++ [⟨m.header,after.buffer.take m.body.length⟩] }
      else { after with phase := .body m.header ((filler + min (m.body.length - filler) q.length : Nat) : Int), dispatched := s.dispatched } := by
  have fits := formed.fits
  have found : (s.inBuffer.getRingBufferReadAvailable : Int) > (sizeOf m.header).tdiv 2 := by
    rw [holds.readAvailable,halfExact formed]
    omega
  have counted : ((sizeOf m.header - filler) % 2 ^ 32).toNat = m.body.length - filler := by
    rw [sizeExact formed]
    omega
  obtain ⟨result,next⟩ := holds.get (sizeOf m.header - filler)
  rw [counted] at result next
  unfold poll
  rw [phase]
  dsimp only
  unfold readBody
  rw [if_pos found]
  generalize s.inBuffer.getDataFromRingBuffer (sizeOf m.header - filler) = got at result next
  obtain ⟨inBuffer,data,numRead⟩ := got
  obtain ⟨rfl,rfl⟩ := Prod.mk.inj result
  refine ⟨⟨inBuffer,Lib.Ring.copy s.buffer 0 (q.take (m.body.length - filler)),.header,[]⟩,next,rfl,?_⟩
  dsimp only
  rw [sizeExact formed,formed.size]
  by_cases complete : m.body.length ≤ filler + min (m.body.length - filler) q.length
  · rw [if_pos complete,if_pos (by omega)]
  · rw [if_neg complete,if_neg (by omega),Nat.cast_add]

theorem bodyDone (whole : q ++ future = m.body.drop filler ++ tail)
    (complete : m.body.length - filler ≤ q.length) : ∃ q' body, s.poll.phase = .header ∧ s.poll.inBuffer.Holds q' ∧
      q' ++ future = tail ∧ s.poll.dispatched = s.dispatched ++ [⟨m.header,body⟩] ∧ (filler = 0 → body = m.body) := by
  obtain ⟨after,next,buffer,result⟩ := bodyRead phase holds formed filled many
  rw [result,if_pos (by omega)]
  have length : (m.body.drop filler).length = m.body.length - filler := length_drop
  refine ⟨_,_,rfl,next,?_,rfl,?_⟩
  · have dropped := congrArg (List.drop (m.body.length - filler)) whole
    rwa [drop_append_of_le_length complete,drop_left' length] at dropped
  · rintro rfl
    have taken := congrArg (List.take (m.body.length - 0)) whole
    rw [take_append_of_le_length complete,take_left' length,drop_zero] at taken
    rw [buffer,taken,Lib.Ring.copy,take_zero,nil_append,take_left]

theorem bodyPart (whole : q ++ future = m.body.drop filler ++ stream rest) (room : m.body.length ≤ s.buffer.length)
    (part : q.length < m.body.length - filler) : s.poll.phase = .body m.header ((filler + q.length : Nat) : Int) ∧
      s.poll.dispatched = s.dispatched ∧ Reading future s.poll (m :: rest) := by
  obtain ⟨after,next,buffer,result⟩ := bodyRead phase holds formed filled many
  have all : min (m.body.length - filler) q.length = q.length := by omega
  rw [all] at result
  rw [result,if_neg (by omega)]
  refine ⟨rfl,rfl,@Reading.body _ _ m rest _ (filler + q.length) rfl next (by omega) ?_ ?_⟩
  · show m.body.length ≤ after.buffer.length
    rw [buffer,Lib.Ring.copyLength]
    · exact room
    · rw [length_take]
      omega
  · have dropped := congrArg (List.drop q.length) whole
    rw [drop_left' rfl,drop_append_of_le_length (by rw [length_drop]; omega),drop_drop] at dropped
    rw [drop_eq_nil_of_le (by omega),nil_append,dropped]

end Read

inductive Advance (future : List U8) (s : SpyServerHandler) (orderly : Prop) (after : SpyServerHandler) (rest : List Message) : Prop where
  | mk (done left : List Message) (split : rest = done ++ left) (reading : Reading future after left)
      (headers : after.dispatched.map Message.header = s.dispatched.map Message.header ++ done.map Message.header)
      (same : orderly → s.Fresh → after.Fresh ∧ after.dispatched = s.dispatched ++ done)

theorem freshHeader (phase : s.phase = .header) : s.Fresh := by
  intro header filler same
  exact nomatch phase.symm.trans same

theorem advanceIdle {after : SpyServerHandler} {orderly : Prop} (reading : Reading future after rest) (kept : after.dispatched = s.dispatched)
    (fresh : orderly → s.Fresh → after.Fresh) : Advance future s orderly after rest :=
  ⟨[],rest,rfl,reading,by rw [kept,map_nil,append_nil],fun meets before => ⟨fresh meets before,by rw [kept,append_nil]⟩⟩

theorem pollAdvance (formed : ∀ m ∈ rest, m.WellFormed) (reading : Reading future s rest) :
    Advance future s (s.Whole .poll) s.poll rest := by
  cases reading with
  | @header rest q phase holds whole =>
    by_cases few : q.length < 20
    · rw [headerWaits phase holds few]
      exact advanceIdle (.header phase holds whole) rfl fun _ fresh => fresh
    · cases rest with
      | nil =>
        have none : q.length + future.length = 0 := by simpa [stream] using congrArg List.length whole
        omega
      | cons m rest =>
        obtain ⟨q',body,kept,next,room,whole'⟩ := headerRead phase holds (formed m (.head _)) (whole.trans streamCons) (by omega)
        refine advanceIdle (@Reading.body _ _ m rest _ 0 body next (Nat.zero_le _) room whole') kept fun _ _ header filler same => ?_
        exact (SpyPhase.body.inj (body.symm.trans same)).2.symm
  | @body m rest q filler phase holds filled room whole =>
    have wellFormed := formed m (.head _)
    by_cases few : q.length ≤ m.body.length / 2
    · rw [bodyWaits phase holds wellFormed few]
      exact advanceIdle (.body phase holds filled room whole) rfl fun _ fresh => fresh
    · by_cases complete : m.body.length - filler ≤ q.length
      · obtain ⟨q',body,ended,next,whole',dispatched,exact⟩ := bodyDone phase holds wellFormed filled (by omega) whole complete
        refine ⟨[m],rest,rfl,.header ended next whole',by rw [dispatched]; simp,fun _ fresh => ⟨freshHeader ended,?_⟩⟩
        have zero : filler = 0 := by
          have start := fresh _ _ phase
          omega
        rw [dispatched,exact zero]
      · obtain ⟨-,kept,next⟩ := bodyPart phase holds wellFormed filled (by omega) whole room (by omega)
        refine advanceIdle next kept fun found => absurd ?_ complete
        unfold Whole at found
        rw [phase] at found
        dsimp only at found
        rw [holds.readAvailable,halfExact wellFormed,sizeExact wellFormed] at found
        omega

theorem runAdvance {events : List Event} (formed : ∀ m ∈ rest, m.WellFormed) (reading : Reading (arrivals events ++ future) s rest)
    (fitting : Along Fitting s events) : Advance future s (Along Whole s events) (s.run events) rest := by
  induction events generalizing s rest with
  | nil => exact advanceIdle reading rfl fun _ fresh => fresh
  | cons e events ih =>
    have first : Advance (arrivals events ++ future) s (s.Whole e) (s.step e) rest := by
      cases e with
      | arrive bytes =>
        have arrived : Reading (bytes ++ (arrivals events ++ future)) s rest := by
          rw [← append_assoc]
          exact reading
        exact advanceIdle (arriveReading arrived fitting.1) rfl fun _ fresh => fresh
      | poll => exact pollAdvance formed reading
    obtain ⟨done,left,rfl,reading',headers,same⟩ := first
    obtain ⟨more,last,rfl,reading'',headers',same'⟩ := ih (fun m member => formed m (mem_append_right _ member)) reading' fitting.2
    refine ⟨done ++ more,last,(append_assoc ..).symm,reading'',?_,fun orderly fresh => ?_⟩
    · show ((s.step e).run events).dispatched.map Message.header = _
      rw [headers',headers,map_append,append_assoc]
    · obtain ⟨fresh',same⟩ := same orderly.1 fresh
      obtain ⟨fresh'',same'⟩ := same' orderly.2 fresh'
      exact ⟨fresh'',by
        show ((s.step e).run events).dispatched = _
        rw [same',same,append_assoc]⟩

end SpyServerHandler
end DabStar
