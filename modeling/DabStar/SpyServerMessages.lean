import DabStar.SpyServerHandler

/-! Framing and progress of the SpyServer reader. As long as what arrives fits and no body is
read in parts, the messages dispatched are those that were sent. -/
namespace DabStar.SpyServerHandler
open List

variable {s : SpyServerHandler} {q tail extra future : List U8} {m : Message} {front rest later : List Message} {filler total : Nat}

def Reaches (s : SpyServerHandler) (total : Nat) : Prop := ∃ k, total ≤ (polls k s).dispatched.length

theorem reachesIdle (idle : s.poll = s) : Reaches s total ↔ total ≤ s.dispatched.length := by
  have still : ∀ k, polls k s = s := fun k => Function.iterate_fixed idle k
  constructor
  · rintro ⟨k,reached⟩
    rwa [still] at reached
  · exact fun reached => ⟨0,reached⟩

theorem reachesPoll (fewer : s.dispatched.length < total) : Reaches s total ↔ Reaches s.poll total := by
  constructor
  · rintro ⟨k,reached⟩
    cases k with
    | zero => exact absurd reached (Nat.not_le.mpr fewer)
    | succ k => exact ⟨k,reached⟩
  · rintro ⟨k,reached⟩
    exact ⟨k + 1,reached⟩

inductive Received (extra : List U8) (s : SpyServerHandler) : List Message → Prop where
  | header {rest : List Message} (phase : s.phase = .header) (holds : s.inBuffer.Holds (stream rest ++ extra)) : Received extra s rest
  | body {m : Message} {rest : List Message} {filler : Nat} (phase : s.phase = .body m.header filler) (filled : filler ≤ m.body.length)
      (holds : s.inBuffer.Holds (m.body.drop filler ++ (stream rest ++ extra))) : Received extra s (m :: rest)

theorem streamAppend : stream (front ++ rest) = stream front ++ stream rest := flatMap_append

theorem receivedOfReading (sent : extra ++ future = stream later) (reading : Reading future s (front ++ later)) (some : front ≠ []) :
    Received extra s front := by
  cases front with
  | nil => exact absurd rfl some
  | cons m front =>
    cases reading with
    | @header _ q phase holds whole =>
      rw [streamAppend,← sent,← append_assoc] at whole
      exact .header phase (append_cancel_right whole ▸ holds)
    | @body _ _ q filler phase holds filled room whole =>
      rw [append_eq,streamAppend,← sent,← append_assoc,← append_assoc] at whole
      have same := append_cancel_right whole
      rw [append_assoc] at same
      exact .body phase filled (same ▸ holds)

theorem headerOnward (phase : s.phase = .header) (formed : m.WellFormed) (holds : s.inBuffer.Holds (stream (m :: rest) ++ extra)) :
    s.poll.phase = .body m.header 0 ∧ s.poll.dispatched = s.dispatched ∧ s.poll.inBuffer.Holds (m.body ++ (stream rest ++ extra)) := by
  have enough : 20 ≤ (stream (m :: rest) ++ extra).length := by
    rw [streamCons,append_assoc,length_append,formed.header]
    omega
  obtain ⟨q',body,kept,next,-,whole⟩ := @headerRead s [] _ (stream rest ++ extra) m phase holds formed
    (by rw [streamCons]; simp only [append_assoc,append_nil]) enough
  rw [append_nil] at whole
  exact ⟨body,kept,whole ▸ next⟩

theorem bodyOnward (phase : s.phase = .body m.header filler) (formed : m.WellFormed) (filled : filler ≤ m.body.length)
    (holds : s.inBuffer.Holds (m.body.drop filler ++ tail)) (many : m.body.length / 2 < (m.body.drop filler ++ tail).length) :
    s.poll.phase = .header ∧ s.poll.inBuffer.Holds tail ∧ s.poll.dispatched.length = s.dispatched.length + 1 := by
  have complete : m.body.length - filler ≤ (m.body.drop filler ++ tail).length := by
    rw [length_append,length_drop]
    omega
  obtain ⟨q',body,ended,next,whole,dispatched,-⟩ := @bodyDone s [] _ tail m filler phase holds formed filled many (append_nil _) complete
  rw [append_nil] at whole
  exact ⟨ended,whole ▸ next,by rw [dispatched,length_append]; rfl⟩

theorem streamLong (formed : m.WellFormed) (member : m ∈ rest) : 0 < (stream rest).length := by
  obtain ⟨front,back,rfl⟩ := append_of_mem member
  rw [streamAppend,streamCons,length_append,length_append,formed.header]
  omega

theorem headerReaches (formed : ∀ m' ∈ front ++ [m], m'.WellFormed) (phase : s.phase = .header)
    (holds : s.inBuffer.Holds (stream (front ++ [m]) ++ extra)) :
    Reaches s (s.dispatched.length + (front.length + 1)) ↔ m.body ≠ [] ∨ extra ≠ [] := by
  induction front generalizing s with
  | nil =>
    have wellFormed := formed m (mem_append_right _ (.head _))
    obtain ⟨body,kept,next⟩ := headerOnward phase wellFormed holds
    rw [reachesPoll (by simp),← kept]
    have left : m.body.length / 2 < (m.body.drop 0 ++ ([] ++ extra)).length ↔ m.body ≠ [] ∨ extra ≠ [] := by
      rw [drop_zero,nil_append,length_append,← length_pos_iff,← length_pos_iff]
      omega
    by_cases many : m.body.length / 2 < (m.body.drop 0 ++ ([] ++ extra)).length
    · have reached := (@bodyOnward s.poll ([] ++ extra) m 0 body wellFormed (Nat.zero_le _) next many).2.2
      exact iff_of_true ⟨1,Nat.le_of_eq reached.symm⟩ (left.mp many)
    · rw [reachesIdle (bodyWaits body next wellFormed (Nat.le_of_not_lt many))]
      exact iff_of_false (by simp) fun some => many (left.mpr some)
  | cons m' front ih =>
    have wellFormed := formed m' (.head _)
    have others : ∀ m' ∈ front ++ [m], m'.WellFormed := fun m' member => formed m' (.tail _ member)
    obtain ⟨body,kept,next⟩ := headerOnward phase wellFormed holds
    have long := streamLong (others m (mem_append_right _ (.head _))) (mem_append_right front (.head []))
    have many : m'.body.length / 2 < (m'.body.drop 0 ++ (stream (front ++ [m]) ++ extra)).length := by
      rw [drop_zero,length_append,length_append]
      omega
    obtain ⟨ended,holds',count⟩ := @bodyOnward s.poll _ m' 0 body wellFormed (Nat.zero_le _) next many
    rw [kept] at count
    rw [reachesPoll (by simp),reachesPoll (by rw [kept]; simp),← ih others ended holds',count]
    have totals : s.dispatched.length + ((m' :: front).length + 1) = s.dispatched.length + 1 + (front.length + 1) := by
      rw [length_cons]
      omega
    rw [totals]

theorem bodyReaches {m' : Message} (formed : ∀ m'' ∈ m' :: (front ++ [m]), m''.WellFormed) (phase : s.phase = .body m'.header filler)
    (filled : filler ≤ m'.body.length) (holds : s.inBuffer.Holds (m'.body.drop filler ++ (stream (front ++ [m]) ++ extra))) :
    Reaches s (s.dispatched.length + (front.length + 2)) ↔
      m'.body.length / 2 < s.inBuffer.getRingBufferReadAvailable ∧ (m.body ≠ [] ∨ extra ≠ []) := by
  have wellFormed := formed m' (.head _)
  have others : ∀ m' ∈ front ++ [m], m'.WellFormed := fun m' member => formed m' (.tail _ member)
  rw [holds.readAvailable]
  by_cases many : m'.body.length / 2 < (m'.body.drop filler ++ (stream (front ++ [m]) ++ extra)).length
  · obtain ⟨ended,holds',count⟩ := bodyOnward phase wellFormed filled holds many
    rw [and_iff_right many,← headerReaches others ended holds',reachesPoll (by omega),count,
      show s.dispatched.length + (front.length + 2) = s.dispatched.length + 1 + (front.length + 1) by omega]
  · rw [reachesIdle (bodyWaits phase holds wellFormed (Nat.le_of_not_lt many))]
    exact iff_of_false (by omega) fun both => many both.1

theorem lastBodyReaches (formed : m.WellFormed) (phase : s.phase = .body m.header filler) (filled : filler ≤ m.body.length)
    (holds : s.inBuffer.Holds (m.body.drop filler ++ extra)) :
    Reaches s (s.dispatched.length + 1) ↔ m.body.length / 2 < s.inBuffer.getRingBufferReadAvailable := by
  rw [holds.readAvailable]
  by_cases many : m.body.length / 2 < (m.body.drop filler ++ extra).length
  · obtain ⟨-,-,count⟩ := bodyOnward phase formed filled holds many
    exact iff_of_true ⟨1,Nat.le_of_eq count.symm⟩ many
  · rw [reachesIdle (bodyWaits phase holds formed (Nat.le_of_not_lt many))]
    exact iff_of_false (by omega) many

/- The reader gets to the message with an index without a further byte, when the stream up to
it is there: it was dispatched, or its body is not empty or bytes follow it, and a body that
was begun has more than half of it in the ring buffer. -/
def Ready (s : SpyServerHandler) (index : Nat) (m : Message) (extra : List U8) : Prop :=
  index < s.dispatched.length ∨
    match s.phase with
    | .header => m.body ≠ [] ∨ extra ≠ []
    | .body header _ => (sizeOf header).tdiv 2 < s.inBuffer.getRingBufferReadAvailable ∧
        (s.dispatched.length = index ∨ m.body ≠ [] ∨ extra ≠ [])

theorem receivedReady (formed : ∀ m' ∈ front ++ [m], m'.WellFormed) (received : Received extra s (front ++ [m])) :
    Reaches s (s.dispatched.length + front.length + 1) ↔ Ready s (s.dispatched.length + front.length) m extra := by
  unfold Ready
  rw [or_iff_right (by omega),Nat.add_assoc]
  cases split : front ++ [m] with
  | nil => simp at split
  | cons m' rest =>
    rw [split] at received
    cases received with
    | header phase holds =>
      rw [phase]
      rw [← split] at holds
      exact headerReaches formed phase holds
    | @body _ _ filler phase filled holds =>
      have wellFormed := formed m' (by rw [split]; exact .head _)
      rw [phase]
      dsimp only
      rw [halfExact wellFormed,Nat.cast_lt]
      cases front with
      | nil =>
        obtain ⟨rfl,rfl⟩ := List.cons.inj split
        rw [and_iff_left (.inl rfl)]
        exact lastBodyReaches wellFormed phase filled holds
      | cons first front =>
        obtain ⟨rfl,rfl⟩ := List.cons.inj split
        rw [length_cons,or_iff_right (by omega)]
        exact bodyReaches formed phase filled holds

theorem startReading (ms : List Message) : Reading (stream ms) newSpyServerHandler ms :=
  .header rfl (RingBuffer.newHolds (by decide) (by decide)) rfl

theorem pollsRun (k : Nat) (events : List Event) : polls k (s.run events) = s.run (events ++ replicate k .poll) := by
  induction k with
  | zero => rw [replicate_zero,append_nil]; rfl
  | succ k ih =>
    have last : s.run (events ++ replicate k .poll ++ [.poll]) = (s.run (events ++ replicate k .poll)).poll := by
      unfold run
      rw [foldl_append]
      rfl
    rw [replicate_succ',← append_assoc,last,← ih]
    exact Function.iterate_succ_apply' poll k _

theorem alongPolls {condition : SpyServerHandler → Event → Prop} (k : Nat) {events : List Event} (always : ∀ s, condition s .poll)
    (along : Along condition s events) : Along condition s (events ++ replicate k .poll) := by
  induction events generalizing s with
  | nil =>
    induction k generalizing s with
    | zero => trivial
    | succ k ih => exact ⟨always s,ih trivial⟩
  | cons e events ih => exact ⟨along.1,ih along.2⟩

theorem arrivalsPolls (k : Nat) (events : List Event) : arrivals (events ++ replicate k .poll) = arrivals events := by
  induction events with
  | nil =>
    induction k with
    | zero => rfl
    | succ k ih => exact ih
  | cons e events ih =>
    cases e with
    | arrive bytes => exact congrArg (bytes ++ ·) ih
    | poll => exact ih

def Dispatches (s : SpyServerHandler) (index : Nat) (m : Message) : Prop :=
  ∃ k, ((polls k s).dispatched.map Message.header)[index]? = some m.header

section Runs
variable {ms : List Message} {events : List Event}

theorem dispatchesIff (formed : ∀ m' ∈ ms ++ m :: later, m'.WellFormed) (sent : arrivals events ++ future = stream (ms ++ m :: later))
    (fitting : Along Fitting newSpyServerHandler events) :
    Dispatches (newSpyServerHandler.run events) ms.length m ↔ Reaches (newSpyServerHandler.run events) (ms.length + 1) := by
  refine exists_congr fun k => ?_
  rw [pollsRun]
  have reading : Reading (arrivals (events ++ replicate k .poll) ++ future) newSpyServerHandler (ms ++ m :: later) := by
    rw [arrivalsPolls,sent]
    exact startReading _
  obtain ⟨done,left,split,-,headers,-⟩ := runAdvance formed reading (alongPolls k (fun _ => trivial) fitting)
  generalize newSpyServerHandler.run (events ++ replicate k .poll) = s at headers
  have known : s.dispatched.map Message.header = done.map Message.header := headers
  have length : s.dispatched.length = done.length := by simpa using congrArg List.length known
  rw [known,length]
  constructor
  · intro found
    have within := (List.getElem?_eq_some_iff.mp found).1
    rwa [length_map] at within
  · intro enough
    have here : (done ++ left)[ms.length]? = some m := by
      rw [← split,List.getElem?_append_right (Nat.le_refl _),Nat.sub_self]
      rfl
    rw [List.getElem?_append_left enough] at here
    rw [List.getElem?_map,here]
    rfl

theorem reachesReady (formed : ∀ m' ∈ ms ++ m :: later, m'.WellFormed) (received : arrivals events = stream (ms ++ [m]) ++ extra)
    (sent : extra ++ future = stream later) (fitting : Along Fitting newSpyServerHandler events) :
    Reaches (newSpyServerHandler.run events) (ms.length + 1) ↔ Ready (newSpyServerHandler.run events) ms.length m extra := by
  have all : ms ++ m :: later = ms ++ [m] ++ later := by simp
  have reading : Reading (arrivals events ++ future) newSpyServerHandler (ms ++ m :: later) := by
    rw [received,append_assoc,sent,← streamAppend,← all]
    exact startReading _
  obtain ⟨done,left,split,reading',headers,-⟩ := runAdvance formed reading fitting
  generalize newSpyServerHandler.run events = s at reading' headers
  have known : s.dispatched.map Message.header = done.map Message.header := headers
  have length : s.dispatched.length = done.length := by simpa using congrArg List.length known
  by_cases before : ms.length < s.dispatched.length
  · exact iff_of_true ⟨0,before⟩ (.inl before)
  · obtain ⟨front,rfl⟩ : ∃ front, ms = done ++ front := by
      have cut := congrArg (List.take done.length) split
      rw [take_left' rfl,take_append_of_le_length (by omega)] at cut
      exact ⟨ms.drop done.length,by conv_rhs => rw [← cut,length_take_of_le (by omega),take_append_drop]⟩
    have rest : left = front ++ [m] ++ later := by
      rw [all,append_assoc,append_assoc] at split
      rw [← append_cancel_left split,append_assoc]
    subst rest
    have others : ∀ m' ∈ front ++ [m], m'.WellFormed := fun m' member =>
      formed m' (split ▸ mem_append_right _ (mem_append_left _ member))
    rw [length_append,← length]
    exact receivedReady others (receivedOfReading sent reading' (by simp))

end Runs

theorem messageProgress (ms later : List Message) (m : Message) (formed : ∀ m' ∈ ms ++ m :: later, m'.WellFormed) (events : List Event)
    (extra future : List U8) (received : arrivals events = stream (ms ++ [m]) ++ extra) (sent : extra ++ future = stream later)
    (fitting : Along Fitting newSpyServerHandler events) :
    Dispatches (newSpyServerHandler.run events) ms.length m ↔ Ready (newSpyServerHandler.run events) ms.length m extra := by
  have whole : arrivals events ++ future = stream (ms ++ m :: later) := by
    rw [received,append_assoc,sent,← streamAppend,append_assoc]
    rfl
  rw [dispatchesIff formed whole fitting,reachesReady formed received sent fitting]

theorem receivedWhole (formed : ∀ m ∈ rest, m.WellFormed) (reading : Reading [] s rest) : s.Whole .poll := by
  unfold Whole
  cases reading with
  | header phase => rw [phase]; trivial
  | @body m rest q filler phase holds filled room whole =>
    rw [phase]
    dsimp only
    rw [holds.readAvailable,sizeExact (formed m (.head _))]
    have length := congrArg List.length whole
    simp only [append_nil,length_append,length_drop] at length
    omega

theorem pollsAdvance (k : Nat) (formed : ∀ m ∈ rest, m.WellFormed) (reading : Reading [] s rest) (fresh : s.Fresh) :
    ∃ done left, rest = done ++ left ∧ (polls k s).dispatched = s.dispatched ++ done := by
  induction k generalizing s rest with
  | zero => exact ⟨[],rest,rfl,(append_nil _).symm⟩
  | succ k ih =>
    obtain ⟨done,left,rfl,reading',-,same⟩ := pollAdvance formed reading
    obtain ⟨fresh',dispatched⟩ := same (receivedWhole formed reading) fresh
    obtain ⟨more,last,rfl,dispatched'⟩ := ih (fun m member => formed m (mem_append_right _ member)) reading' fresh'
    refine ⟨done ++ more,last,(append_assoc ..).symm,?_⟩
    show (polls k s.poll).dispatched = _
    rw [dispatched',dispatched,append_assoc]

theorem freshReady (reading : Reading [] s (front ++ [m])) (formed : ∀ m' ∈ front ++ [m], m'.WellFormed) (fresh : s.Fresh)
    (filled : m.body ≠ []) : Ready s (s.dispatched.length + front.length) m [] := by
  refine .inr ?_
  cases split : front ++ [m] with
  | nil => simp at split
  | cons m' rest =>
    rw [split] at reading
    cases reading with
    | header phase => rw [phase]; exact .inl filled
    | @body _ _ q filler phase holds _ room whole =>
      obtain rfl : filler = 0 := by
        have start := fresh _ _ phase
        omega
      rw [phase]
      refine ⟨?_,.inr (.inl filled)⟩
      have length := congrArg List.length whole
      rw [append_nil,drop_zero,length_append] at length
      rw [holds.readAvailable,halfExact (formed m' (by rw [split]; exact .head _)),Nat.cast_lt,length]
      have some : 0 < m'.body.length + (stream rest).length := by
        cases front with
        | nil =>
          obtain ⟨rfl,-⟩ := List.cons.inj split
          have positive := length_pos_iff.mpr filled
          omega
        | cons _ front =>
          obtain ⟨rfl,rfl⟩ := List.cons.inj split
          have long := streamLong (formed m (mem_append_right _ (.head _))) (mem_append_right front (.head []))
          exact Nat.add_pos_right _ long
      omega

def EndsFilled (ms : List Message) : Prop := ∀ m, ms.getLast? = some m → m.body ≠ []

theorem messageFraming (ms : List Message) (formed : ∀ m ∈ ms, m.WellFormed) (events : List Event) (future : List U8)
    (sent : arrivals events ++ future = stream ms) (fitting : Along Fitting newSpyServerHandler events)
    (whole : Along Whole newSpyServerHandler events) : (∃ left, ms = (newSpyServerHandler.run events).dispatched ++ left) ∧
      (future = [] → EndsFilled ms → ∃ k, (polls k (newSpyServerHandler.run events)).dispatched = ms) := by
  have reading : Reading (arrivals events ++ future) newSpyServerHandler ms := sent ▸ startReading ms
  obtain ⟨done,left,rfl,reading',headers,same⟩ := runAdvance formed reading fitting
  obtain ⟨fresh,dispatched⟩ := same whole (freshHeader rfl)
  generalize newSpyServerHandler.run events = s at reading' fresh dispatched
  have others : ∀ m ∈ left, m.WellFormed := fun m member => formed m (mem_append_right _ member)
  have exact : s.dispatched = done := dispatched
  refine ⟨⟨left,by rw [exact]⟩,?_⟩
  rintro rfl filled
  rcases eq_nil_or_concat left with rfl | ⟨front,m,rfl⟩
  · exact ⟨0,by rw [append_nil]; exact exact⟩
  rw [concat_eq_append] at reading' others filled ⊢
  have last : m.body ≠ [] := filled m (by rw [← append_assoc,List.getLast?_concat])
  have ready := freshReady reading' others fresh last
  have received : Received [] s (front ++ [m]) := receivedOfReading (by rfl : [] ++ [] = stream []) (by simpa using reading') (by simp)
  obtain ⟨k,reached⟩ := (receivedReady others received).mpr ready
  obtain ⟨more,none,split,after⟩ := pollsAdvance k others reading' fresh
  have nothing : none = [] := by
    have count := congrArg List.length split
    rw [after] at reached
    simp only [length_append,length_cons,length_nil] at count reached
    exact length_eq_zero_iff.mp (by omega)
  exact ⟨k,by rw [after,exact,split,nothing,append_nil]⟩

def shortMessage (body : List U8) : Message := ⟨replicate 16 0#8 ++ [BitVec.ofNat 8 body.length,0#8,0#8,0#8],body⟩

theorem shortFormed (body : List U8) (short : body.length < 256) : (shortMessage body).WellFormed := by
  refine ⟨rfl,?_,?_⟩
  · show (BitVec.ofNat 8 body.length).toNat + 2 ^ 8 * 0 + 2 ^ 16 * 0 + 2 ^ 24 * 0 = body.length
    rw [BitVec.toNat_ofNat]
    omega
  · show body.length ≤ _
    omega

theorem startFits {bytes : List U8} (few : bytes.length ≤ 64 * 32768) : Fitting newSpyServerHandler (.arrive bytes) := by
  have holds : newSpyServerHandler.inBuffer.Holds [] := RingBuffer.newHolds (by decide) (by decide)
  have size : newSpyServerHandler.inBuffer.bufferSize = 64 * 32768 := by decide
  unfold Fitting
  rw [holds.writeAvailable,size]
  exact few

theorem wholeMessageFramed : (shortMessage [7#8]).WellFormed ∧
    ∃ k, (polls k (newSpyServerHandler.run [.arrive (shortMessage [7#8]).bytes])).dispatched = [shortMessage [7#8]] := by
  have formed := shortFormed [7#8] (by decide)
  have framed := messageFraming [shortMessage [7#8]] (by simpa using formed) [.arrive (shortMessage [7#8]).bytes] [] (by decide)
    ⟨startFits (by decide),trivial⟩ ⟨trivial,trivial⟩
  exact ⟨formed,framed.2 rfl fun m last => by obtain rfl := Option.some.inj last; decide⟩

theorem wholeMessageProgress : (shortMessage [7#8]).WellFormed ∧
    Dispatches (newSpyServerHandler.run [.arrive (shortMessage [7#8]).bytes]) 0 (shortMessage [7#8]) := by
  have formed := shortFormed [7#8] (by decide)
  exact ⟨formed,(messageProgress [] [] (shortMessage [7#8]) (by simpa using formed) [.arrive (shortMessage [7#8]).bytes] [] [] (by decide) rfl
    ⟨startFits (by decide),trivial⟩).mpr (.inr (.inl (by decide)))⟩

theorem emptyBodyWaits : (shortMessage []).WellFormed ∧ arrivals [.arrive (shortMessage []).bytes] = stream [shortMessage []] ∧
    ¬ Dispatches (newSpyServerHandler.run [.arrive (shortMessage []).bytes]) 0 (shortMessage []) := by
  have formed := shortFormed [] (by decide)
  have formedAll : ∀ m' ∈ [] ++ shortMessage [] :: [], m'.WellFormed := by simpa using formed
  have fitting : Along Fitting newSpyServerHandler [.arrive (shortMessage []).bytes] := ⟨startFits (by decide),trivial⟩
  refine ⟨formed,by decide,fun dispatches => ?_⟩
  have reached := (@dispatchesIff [] (shortMessage []) [] [] _ formedAll (by decide) fitting).mp dispatches
  rcases (@reachesReady [] [] (shortMessage []) [] [] _ formedAll (by decide) rfl fitting).mp reached with done | some | more
  · exact absurd done (by decide)
  · exact some rfl
  · exact more rfl

theorem partsOverwritten : let m := shortMessage [1#8,2#8,3#8]
    let m' := shortMessage [7#8]
    let events := [.arrive (m.header ++ [1#8,2#8]),.poll,.poll,.arrive (3#8 :: m'.bytes),.poll]
    (m.WellFormed ∧ m'.WellFormed) ∧ arrivals events = stream [m,m'] ∧ Along Fitting newSpyServerHandler events ∧
      (newSpyServerHandler.run events).dispatched.map Message.body = [[3#8,2#8,0#8]] := by
  refine ⟨⟨shortFormed _ (by decide),shortFormed _ (by decide)⟩,by decide,?_⟩
  decide +kernel

end DabStar.SpyServerHandler
