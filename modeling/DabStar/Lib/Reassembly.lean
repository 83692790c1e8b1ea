import Mathlib.Data.List.Basic
import Mathlib.Data.List.Infix
import Mathlib.Tactic.Common

/-! Messages cut into packets. A packet that did not come, or was refused, is `none`; the
receiver does not notice it and goes on with the series it has. -/
namespace DabStar.Lib.Reassembly
open List

inductive Part where
  | first
  | intermediate
  | last
  | single
  deriving DecidableEq, Repr

variable {β : Type}

def step : Option (List β) → Option (Part × β) → Option (List β) × Option (List β)
  | series, none => (series, none)
  | none, some (.first, x) => (some [x], none)
  | none, some (.single, x) => (none, some [x])
  | none, some (.intermediate, _) => (none, none)
  | none, some (.last, _) => (none, none)
  | some xs, some (.intermediate, x) => (some (xs ++ [x]), none)
  | some xs, some (.last, x) => (none, some (xs ++ [x]))
  | some _, some (.first, x) => (some [x], none)
  | some _, some (.single, _) => (none, none)

def seriesAfter (stream : List (Option (Part × β))) : Option (List β) := stream.foldl (fun series e => (step series e).1) none

def Within : Option (Part × β) → Prop
  | none => True
  | some (part, _) => part = .intermediate

def IsRun (parts : List Part) : Prop := parts = [.single] ∨ ∃ count, parts = .first :: replicate count .intermediate ++ [.last]

def Gapless (stream : List (Option (Part × β))) (message : List β) : Prop :=
  ∃ packets : List (Part × β), packets.map Prod.snd = message ∧ IsRun (packets.map Prod.fst) ∧ packets.map some <:+ stream

def Unbroken (stream : List (Option (Part × β))) : Prop :=
  ∀ before x mid y after, stream = before ++ some (.first, x) :: mid ++ some (.last, y) :: after → (∀ e ∈ mid, Within e) → none ∉ mid

variable {stream mid mid' before before' : List (Option (Part × β))} {x x' y : β}

theorem seriesSnoc (stream : List (Option (Part × β))) (e : Option (Part × β)) :
    seriesAfter (stream ++ [e]) = (step (seriesAfter stream) e).1 := by simp [seriesAfter]

theorem withinFirst : ¬ Within (some (Part.first, x)) := nofun

theorem seriesOpened (before : List (Option (Part × β))) (x : β) : seriesAfter (before ++ [some (.first, x)]) = some [x] := by
  rw [seriesSnoc]
  cases seriesAfter before <;> rfl

theorem seriesContinued (inside : ∀ e ∈ mid, Within e) :
    seriesAfter (before ++ some (.first, x) :: mid) = some (x :: mid.filterMap (Option.map Prod.snd)) := by
  induction mid using List.reverseRecOn with
  | nil => exact seriesOpened before x
  | append_singleton mid e ih =>
    have whole : before ++ some (Part.first, x) :: (mid ++ [e]) = before ++ some (Part.first, x) :: mid ++ [e] := by simp
    rw [whole,seriesSnoc,ih fun e' member => inside e' (mem_append_left _ member)]
    have here := inside e (mem_append_right _ (mem_singleton_self e))
    cases e with
    | none => simp [step]
    | some p =>
      obtain ⟨part,z⟩ := p
      obtain rfl : part = .intermediate := here
      simp [step]

theorem stepOpen {series : Option (List β)} {e : Option (Part × β)} {xs : List β} (opened : (step series e).1 = some xs) :
    (∃ ys, series = some ys ∧ Within e) ∨ ∃ x, e = some (.first, x) := by
  cases e with
  | none => exact .inl ⟨xs,opened,trivial⟩
  | some p =>
    obtain ⟨part,x⟩ := p
    cases part with
    | first => exact .inr ⟨x,rfl⟩
    | intermediate =>
      cases series with
      | none => exact nomatch opened
      | some ys => exact .inl ⟨ys,rfl,rfl⟩
    | last | single => cases series <;> exact nomatch opened

theorem stepHands {series : Option (List β)} {e : Option (Part × β)} {message : List β} (handed : (step series e).2 = some message) :
    (∃ x, e = some (.single, x) ∧ message = [x]) ∨ ∃ xs y, series = some xs ∧ e = some (.last, y) ∧ message = xs ++ [y] := by
  cases e with
  | none => exact nomatch handed
  | some p =>
    obtain ⟨part,x⟩ := p
    cases series with
    | none =>
      cases part with
      | single => exact .inl ⟨x,rfl,(Option.some.inj handed).symm⟩
      | first | intermediate | last => exact nomatch handed
    | some xs =>
      cases part with
      | last => exact .inr ⟨xs,x,rfl,rfl,(Option.some.inj handed).symm⟩
      | first | intermediate | single => exact nomatch handed

theorem seriesBegun {xs : List β} (opened : seriesAfter stream = some xs) :
    ∃ before x mid, stream = before ++ some (.first, x) :: mid ∧ ∀ e ∈ mid, Within e := by
  induction stream using List.reverseRecOn generalizing xs with
  | nil => exact nomatch opened
  | append_singleton stream e ih =>
    rw [seriesSnoc] at opened
    rcases stepOpen opened with ⟨ys,series,within⟩ | ⟨x,rfl⟩
    · obtain ⟨before,x,mid,rfl,inside⟩ := ih series
      refine ⟨before,x,mid ++ [e],by simp,fun e' member => ?_⟩
      rcases mem_append.mp member with old | new
      · exact inside e' old
      · rwa [mem_singleton.mp new]
    · exact ⟨stream,x,[],rfl,nofun⟩

theorem begunOnce (same : before ++ some (.first, x) :: mid = before' ++ some (.first, x') :: mid')
    (inside : ∀ e ∈ mid, Within e) (inside' : ∀ e ∈ mid', Within e) : mid = mid' := by
  rcases append_eq_append_iff.mp same with ⟨between,rfl,rest⟩ | ⟨between,rfl,rest⟩
  · cases between with
    | nil => exact (List.cons.inj rest).2
    | cons e between =>
      have member : some (Part.first, x') ∈ mid := by simp [(List.cons.inj rest).2]
      exact absurd (inside _ member) withinFirst
  · cases between with
    | nil => exact (List.cons.inj rest).2.symm
    | cons e between =>
      have member : some (Part.first, x) ∈ mid' := by simp [(List.cons.inj rest).2]
      exact absurd (inside' _ member) withinFirst

theorem withinAll (inside : ∀ e ∈ mid, Within e) (complete : none ∉ mid) :
    ∃ zs : List β, mid = zs.map (fun z => some (.intermediate, z)) := by
  induction mid with
  | nil => exact ⟨[],rfl⟩
  | cons e mid ih =>
    obtain ⟨zs,rfl⟩ := ih (fun e' member => inside e' (mem_cons_of_mem _ member)) (fun member => complete (mem_cons_of_mem _ member))
    cases e with
    | none => exact absurd mem_cons_self complete
    | some p =>
      obtain ⟨part,z⟩ := p
      obtain rfl : part = .intermediate := inside _ mem_cons_self
      exact ⟨z :: zs,rfl⟩

theorem gaplessComplete {message : List β} (inside : ∀ e ∈ mid, Within e)
    (gapless : Gapless (before ++ some (.first, x) :: mid ++ [some (.last, y)]) message) : none ∉ mid := by
  obtain ⟨packets,-,run,rest,same⟩ := gapless
  rcases run with single | ⟨count,parts⟩
  · obtain ⟨p,rfl,part⟩ := map_eq_singleton_iff.mp single
    have ends := append_inj_right' same rfl
    simp only [map_cons,map_nil,List.cons.injEq,and_true,Option.some.injEq] at ends
    rw [ends] at part
    exact nomatch part
  · obtain ⟨heads,lasts,rfl,headParts,lastParts⟩ := map_eq_append_iff.mp parts
    obtain ⟨p,zs,rfl,begins,continues⟩ := map_eq_cons_iff.mp headParts
    obtain ⟨part,z⟩ := p
    obtain rfl : part = .first := begins
    obtain ⟨q,rfl,-⟩ := map_eq_singleton_iff.mp lastParts
    have heads : rest ++ some (.first, z) :: zs.map some = before ++ some (.first, x) :: mid := by
      have joined : rest ++ some (.first, z) :: zs.map some ++ [some q] = before ++ some (.first, x) :: mid ++ [some (.last, y)] := by
        simpa using same
      exact append_inj_left' joined rfl
    have through : ∀ e ∈ zs.map some, Within e := by
      intro e member
      obtain ⟨w,inZs,rfl⟩ := mem_map.mp member
      exact eq_of_mem_replicate (continues ▸ mem_map_of_mem inZs)
    rw [← begunOnce heads through inside]
    simp

theorem unbrokenOfGapless (gapless : ∀ before e after, stream = before ++ e :: after → (step (seriesAfter before) e).2 ≠ none →
    ∃ message, Gapless (before ++ [e]) message) : Unbroken stream := by
  rintro before x mid y after rfl inside
  obtain ⟨message,here⟩ := gapless (before ++ some (.first, x) :: mid) (some (.last, y)) after (by simp) (by
    rw [seriesContinued inside]
    exact nofun)
  exact gaplessComplete inside here

theorem gaplessOfUnbroken {e : Option (Part × β)} {after : List (Option (Part × β))} (unbroken : Unbroken (before ++ e :: after))
    {message : List β} (handed : (step (seriesAfter before) e).2 = some message) : Gapless (before ++ [e]) message := by
  rcases stepHands handed with ⟨x,rfl,rfl⟩ | ⟨xs,y,opened,rfl,rfl⟩
  · exact ⟨[(.single, x)],rfl,.inl rfl,suffix_append ..⟩
  · obtain ⟨earlier,x,mid,rfl,inside⟩ := seriesBegun opened
    obtain ⟨zs,rfl⟩ := withinAll inside (unbroken earlier x mid y after (by simp) inside)
    rw [seriesContinued inside] at opened
    obtain rfl := Option.some.inj opened
    refine ⟨(.first, x) :: zs.map (fun z => (.intermediate, z)) ++ [(.last, y)],?_,.inr ⟨zs.length,?_⟩,earlier,?_⟩
    · simp [Function.comp_def]
    · simp [Function.comp_def]
    · simp [Function.comp_def]

end DabStar.Lib.Reassembly
