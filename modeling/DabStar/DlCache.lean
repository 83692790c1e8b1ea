import DabStar.Lib.RecentUse
import DabStar.Lib.Ring

/-! The cache of dynamic links, sixteen cells in a ring with the oldest one at p. A string that
is there is moved behind all others, another one overwrites the oldest. -/
namespace DabStar.DlCache
open List Lib.Ring Lib.RecentUse

def cCacheSize : Nat := 16

def cCacheMask : Nat := cCacheSize - 1

structure DynLinkCache where
  cache : List String
  p : Nat
  deriving DecidableEq

def fresh : DynLinkCache := ⟨replicate cCacheSize "",0⟩

def add (c : DynLinkCache) (s : String) : DynLinkCache := ⟨c.cache.set c.p s,(c.p + 1) &&& cCacheMask⟩

def shiftCell (cache : List String) (j : Nat) : List String := cache.set (j &&& cCacheMask) (cache.getD ((j + 1) &&& cCacheMask) "")

def addIfNew (c : DynLinkCache) (s : String) : Bool × DynLinkCache :=
  match ((range cCacheSize).map (c.p + ·)).find? (fun i => c.cache.getD (i &&& cCacheMask) "" = s) with
  | some i =>
    -- with p = 0 the unsigned bound p - 1 + 16 is 15 again
    let cache := ((range (c.p + cCacheSize - 1 - i)).map (i + ·)).foldl shiftCell c.cache
    (true, ⟨cache.set ((c.p + cCacheSize - 1) &&& cCacheMask) s,c.p⟩)
  | none => (false, add c s)

def useAll (history : List String) : DynLinkCache := history.foldl (fun c s => (addIfNew c s).2) fresh

def inOrder (c : DynLinkCache) : List String := window c.cache c.p cCacheSize

def Sound (c : DynLinkCache) : Prop := c.cache.length = cCacheSize ∧ c.p < cCacheSize

variable {c : DynLinkCache} {s : String}

theorem masked (i : Nat) : i &&& cCacheMask = i % cCacheSize := Nat.and_two_pow_sub_one_eq_mod i 4

theorem windowSet {cells : List String} {p k : Nat} (size : cells.length = cCacheSize) (inside : k < cCacheSize) (v : String) :
    window (cells.set ((p + k) % cCacheSize) v) p cCacheSize = (window cells p cCacheSize).set k v := by
  refine ext_getElem (by simp) fun j short _ => ?_
  rw [windowLength] at short
  have apart : (p + k) % cCacheSize = (p + j) % cCacheSize ↔ k = j := by
    unfold cCacheSize at *
    omega
  have here : (p + j) % cCacheSize < cCacheSize := Nat.mod_lt _ (by decide)
  simp only [window,length_set,getElem_map,getElem_range,getElem_set,getD_eq_getElem?_getD,getElem?_set,size,apart]
  split
  · next same => rw [if_pos (same ▸ here)]; rfl
  · rfl

def slide (cells : List String) (j : Nat) : List String := cells.set j (cells.getD (j + 1) "")

theorem shiftWindow {cells : List String} {p k : Nat} (size : cells.length = cCacheSize) (inside : k + 1 < cCacheSize) :
    window (shiftCell cells (p + k)) p cCacheSize = slide (window cells p cCacheSize) k := by
  rw [shiftCell,masked,masked,windowSet size (by omega),slide]
  simp [window,size,inside,Nat.add_assoc]

theorem slid (front behind : List String) (x s : String) :
    ((range behind.length).foldl (fun cells k => slide cells (front.length + k)) (front ++ x :: behind)).set
      (front.length + behind.length) s = front ++ behind ++ [s] := by
  induction behind generalizing front x with
  | nil => simp
  | cons b rest ih =>
    have moved : slide (front ++ x :: b :: rest) front.length = (front ++ [b]) ++ b :: rest := by simp [slide]
    have next := ih (front ++ [b]) b
    simp only [length_append,length_singleton,Nat.add_assoc,Nat.add_comm 1] at next
    simp only [length_cons,range_succ_eq_map,foldl_cons,foldl_map,Nat.add_zero,moved,Nat.succ_eq_add_one,next]
    simp

theorem shiftLength (cells : List String) (j : Nat) : (shiftCell cells j).length = cells.length := length_set

theorem shiftsWindow {cells : List String} {p a n : Nat} (size : cells.length = cCacheSize) (inside : a + n < cCacheSize) :
    (((range n).map (p + a + ·)).foldl shiftCell cells).length = cCacheSize ∧
    window (((range n).map (p + a + ·)).foldl shiftCell cells) p cCacheSize =
      (range n).foldl (fun cells k => slide cells (a + k)) (window cells p cCacheSize) := by
  induction n with
  | zero => exact ⟨size,rfl⟩
  | succ n ih =>
    obtain ⟨long,same⟩ := ih (by omega)
    simp only [range_succ,map_append,foldl_append,map_singleton,foldl_cons,foldl_nil,shiftLength,Nat.add_assoc p] at long same ⊢
    exact ⟨long,by rw [shiftWindow long (by omega),same]⟩

theorem foundPlace {i : Nat}
    (found : ((range cCacheSize).map (c.p + ·)).find? (fun i => c.cache.getD (i &&& cCacheMask) "" = s) = some i) (sound : Sound c) :
    ∃ front behind, i = c.p + front.length ∧ s ∉ front ∧ inOrder c = front ++ s :: behind := by
  rw [find?_map,Option.map_eq_some_iff] at found
  obtain ⟨a,found,rfl⟩ := found
  obtain ⟨here,inside,before⟩ := find?_range_eq_some.mp found
  simp only [Function.comp_apply,masked,decide_eq_true_eq,Bool.not_eq_true',decide_eq_false_iff_not,mem_range] at here inside before
  refine ⟨(inOrder c).take a,(inOrder c).drop (a + 1),?_,?_,?_⟩
  · simp [inOrder,inside.le]
  · intro earlier
    obtain ⟨k,near,same⟩ := mem_take_iff_getElem.mp earlier
    refine before k (by omega) ?_
    simpa [inOrder,window,sound.1] using same
  · have cell : (inOrder c)[a]? = some s := by simpa [inOrder,window,sound.1,inside] using here
    obtain ⟨short,value⟩ := List.getElem?_eq_some_iff.mp cell
    conv_lhs => rw [← take_append_drop a (inOrder c),drop_eq_getElem_cons short,value]

theorem missingString (missing : ((range cCacheSize).map (c.p + ·)).find? (fun i => c.cache.getD (i &&& cCacheMask) "" = s) = none)
    (sound : Sound c) : s ∉ inOrder c := by
  intro member
  simp only [inOrder,window,mem_map,sound.1] at member
  obtain ⟨k,near,same⟩ := member
  have other := find?_eq_none.mp missing (c.p + k) (mem_map.mpr ⟨k,near,rfl⟩)
  rw [masked] at other
  exact other (by simpa using same)

theorem addOrder (sound : Sound c) : Sound (add c s) ∧ inOrder (add c s) = (inOrder c).drop 1 ++ [s] := by
  obtain ⟨size,low⟩ := sound
  have written : window (c.cache.set c.p s) c.p cCacheSize = (inOrder c).set 0 s := by
    conv_lhs => rw [show c.cache.set c.p s = c.cache.set ((c.p + 0) % cCacheSize) s by rw [Nat.add_zero,Nat.mod_eq_of_lt low]]
    exact windowSet size (by decide) s
  have turned : inOrder (add c s) = window (c.cache.set c.p s) (c.p + 1) (cCacheSize - 1 + 1) := by
    rw [inOrder,add,masked]
    exact windowShift (by simp [size])
  have last : window (c.cache.set c.p s) (c.p + 1 + (cCacheSize - 1)) 1 = window (c.cache.set c.p s) c.p 1 :=
    windowShift (by rw [length_set,size,show c.p + 1 + (cCacheSize - 1) = c.p + cCacheSize from rfl,Nat.add_mod_right])
  refine ⟨⟨by simp [add,size],by simpa [add,masked] using Nat.mod_lt _ (by decide)⟩,?_⟩
  rw [turned,windowAdd,last,← windowDrop (show 1 ≤ cCacheSize by decide),← windowTake (show 1 ≤ cCacheSize by decide),written]
  have long : (inOrder c).length = cCacheSize := windowLength
  generalize inOrder c = cells at long
  match cells with
  | _ :: _ => rfl

theorem addIfNewOrder (sound : Sound c) : Sound (addIfNew c s).2 ∧ (addIfNew c s).1 = decide (s ∈ inOrder c) ∧
    inOrder (addIfNew c s).2 = (if s ∈ inOrder c then (inOrder c).erase s else (inOrder c).drop 1) ++ [s] := by
  unfold addIfNew
  split
  · next i found =>
    obtain ⟨front,behind,rfl,before,cells⟩ := foundPlace found sound
    have long : front.length + behind.length + 1 = cCacheSize := by
      have := congrArg List.length cells
      simp only [inOrder,windowLength,length_append,length_cons] at this
      omega
    have count : c.p + cCacheSize - 1 - (c.p + front.length) = behind.length := by omega
    have last : (c.p + cCacheSize - 1) &&& cCacheMask = (c.p + (front.length + behind.length)) % cCacheSize := by
      rw [masked]
      congr 1
      omega
    have member : s ∈ inOrder c := by simp [cells]
    obtain ⟨size,shifted⟩ := shiftsWindow (p := c.p) (a := front.length) (n := behind.length) sound.1 (by omega)
    simp only [count,last]
    refine ⟨⟨by simpa using size,sound.2⟩,by simp [member],?_⟩
    rw [if_pos member,inOrder,windowSet size (by omega),shifted,← inOrder,cells,slid,erase_append_right _ before,erase_cons_head]
  · next missing =>
    have absent := missingString missing sound
    rw [if_neg absent]
    exact ⟨(addOrder sound).1,by simp [absent],(addOrder sound).2⟩

theorem usedOrder (history : List String) (filled : ∀ s ∈ history, s ≠ "") :
    Sound (useAll history) ∧ inOrder (useAll history) = table cCacheSize "" history := by
  induction history using List.reverseRecOn with
  | nil => exact ⟨⟨rfl,by decide⟩,rfl⟩
  | append_singleton history s ih =>
    obtain ⟨sound,order⟩ := ih fun t member => filled t (by simp [member])
    have other : s ≠ "" := filled s (by simp)
    obtain ⟨kept,-,next⟩ := addIfNewOrder (s := s) sound
    rw [useAll,foldl_append]
    refine ⟨kept,next.trans ?_⟩
    rw [order]
    split
    · next hit => exact (useHit other hit).symm
    · next miss => exact (useMiss other miss).symm

theorem recentlyUsed (history : List String) (s : String) (filled : ∀ t ∈ history ++ [s], t ≠ "") :
    (addIfNew (useAll history) s).1 = decide (s ∈ recent cCacheSize history) ∧
    inOrder (addIfNew (useAll history) s).2 = table cCacheSize "" (history ++ [s]) := by
  obtain ⟨sound,order⟩ := usedOrder history fun t member => filled t (by simp [member])
  have next := (usedOrder (history ++ [s]) filled).2
  rw [useAll,foldl_append] at next
  refine ⟨?_,next⟩
  rw [(addIfNewOrder sound).2.1,order,decide_eq_decide]
  exact memTable (filled s (by simp))

theorem linkAgain : (addIfNew (useAll ["a","b","c"]) "a").1 = decide ("a" ∈ recent cCacheSize ["a","b","c"]) ∧
    inOrder (addIfNew (useAll ["a","b","c"]) "a").2 = replicate 13 "" ++ ["b","c","a"] := recentlyUsed ["a","b","c"] "a" (by decide)

end DabStar.DlCache
