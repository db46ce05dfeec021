import ApiManual.Random.Draw
import Mathlib.Data.List.Induction

/-!
# The words of a seed

A seed of one word makes the state of the generator in three sweeps. A sweep goes over the words and mixes
each with the new word before it; the last one is carried to the front.

* `repeat_turn`, `repeat_lap`: going on round by round, up to the end and past it, is a sweep.
* `ofSeed_word`: the state of a seed of one word.
* `getD_twist`: a word of the next state that is made of words of the last one alone.
-/

namespace ApiManual.Generator

/-! ## Sweeps -/

/-- Mix the words that stand from place `i` on, each with the new word before it. -/
def sweep (mix : Nat → UInt32 → UInt32 → UInt32) : Nat → UInt32 → List UInt32 → List UInt32
  | _, _, [] => []
  | i, before, w :: ws => mix i w before :: sweep mix (i + 1) (mix i w before) ws

section Sweep

variable (mix : Nat → UInt32 → UInt32 → UInt32)

@[simp]
theorem length_sweep (i : Nat) (before : UInt32) (ws : List UInt32) :
    (sweep mix i before ws).length = ws.length := by
  induction ws generalizing i before with
  | nil => rfl
  | cons w ws ih => simp [sweep, ih]

theorem sweep_concat (i : Nat) (before w : UInt32) (ws : List UInt32) :
    sweep mix i before (ws ++ [w]) =
      sweep mix i before ws ++ [mix (i + ws.length) w ((sweep mix i before ws).getLastD before)] := by
  induction ws generalizing i before with
  | nil => rfl
  | cons v ws ih =>
    simp only [List.cons_append, sweep, ih, List.getLastD_cons, List.length_cons]
    congr 4
    omega

/-- One round: mix the word at the place of the state. -/
def turn (state : Array UInt32 × Nat) : Array UInt32 × Nat :=
  place state.1 state.2 (mix state.2 (state.1.getD state.2 0) (state.1.getD (state.2 - 1) 0))

theorem place_inside (front post : List UInt32) (w w' : UInt32) (h : front.length + 1 < size) :
    place (front ++ w :: post).toArray front.length w' = ((front ++ w' :: post).toArray, front.length + 1) := by
  simp [place, h]

theorem place_last (front : List UInt32) (w w' : UInt32) (h : front.length + 1 = size) :
    place (front ++ [w]).toArray front.length w' = (((front ++ [w']).set 0 w').toArray, 1) := by
  have hsize : size - 1 = front.length := by omega
  simp [place, h, hsize, List.getElem?_concat_length]

/-- A round at a place with words on both sides. -/
theorem turn_append (front post : List UInt32) (b w : UInt32) :
    turn mix ((front ++ [b] ++ w :: post).toArray, (front ++ [b]).length) =
      place (front ++ [b] ++ w :: post).toArray (front ++ [b]).length (mix (front ++ [b]).length w b) := by
  unfold turn
  congr 2
  · simp
  · simp

theorem exists_concat_sweep (pre : List UInt32) (i : Nat) (b : UInt32) (ws : List UInt32) :
    ∃ front, pre ++ b :: sweep mix i b ws = front ++ [(sweep mix i b ws).getLastD b] := by
  rcases List.eq_nil_or_concat (sweep mix i b ws) with h | ⟨front, last, h⟩
  · exact ⟨pre, by rw [h]; rfl⟩
  · exact ⟨pre ++ b :: front, by rw [h]; simp⟩

/-- Rounds that do not reach the end. -/
theorem repeat_turn (pre ws post : List UInt32) (b : UInt32) (h : pre.length + 1 + ws.length < size) :
    Nat.repeat (turn mix) ws.length ((pre ++ b :: ws ++ post).toArray, pre.length + 1) =
      ((pre ++ b :: sweep mix (pre.length + 1) b ws ++ post).toArray, pre.length + 1 + ws.length) := by
  induction ws using List.reverseRecOn generalizing post with
  | nil => rfl
  | append_singleton ws w ih =>
    obtain ⟨front, hfront⟩ := exists_concat_sweep mix pre (pre.length + 1) b ws
    have hlength : (front ++ [(sweep mix (pre.length + 1) b ws).getLastD b]).length = pre.length + 1 + ws.length := by
      rw [← hfront]
      simp
      omega
    simp only [List.length_append, List.length_cons, List.length_nil, Nat.zero_add] at h ⊢
    rw [show pre ++ b :: (ws ++ [w]) ++ post = pre ++ b :: ws ++ w :: post by simp]
    change turn mix (Nat.repeat (turn mix) ws.length _) = _
    rw [ih _ (by omega), hfront, ← hlength, turn_append, place_inside _ _ _ _ (by omega), sweep_concat,
      ← List.cons_append, ← List.append_assoc, hfront]
    simp only [hlength, List.append_assoc, List.cons_append, List.nil_append, Nat.add_assoc]

/-- Rounds up to the end, where the last word is carried to the front. -/
theorem repeat_lap (pre ws : List UInt32) (b : UInt32) (hws : ws ≠ []) (h : pre.length + 1 + ws.length = size) :
    Nat.repeat (turn mix) ws.length ((pre ++ b :: ws).toArray, pre.length + 1) =
      (((pre ++ b :: sweep mix (pre.length + 1) b ws).set 0
          ((sweep mix (pre.length + 1) b ws).getLastD 0)).toArray, 1) := by
  cases ws using List.reverseRecOn with
  | nil => exact absurd rfl hws
  | append_singleton ws w =>
    obtain ⟨front, hfront⟩ := exists_concat_sweep mix pre (pre.length + 1) b ws
    have hlength : (front ++ [(sweep mix (pre.length + 1) b ws).getLastD b]).length = pre.length + 1 + ws.length := by
      rw [← hfront]
      simp
      omega
    simp only [List.length_append, List.length_cons, List.length_nil, Nat.zero_add] at h ⊢
    rw [show pre ++ b :: (ws ++ [w]) = pre ++ b :: ws ++ [w] by simp]
    change turn mix (Nat.repeat (turn mix) ws.length _) = _
    rw [repeat_turn mix pre ws [w] b (by omega), hfront, ← hlength, turn_append, place_last _ _ _ (by omega),
      sweep_concat, ← List.cons_append, ← List.append_assoc, hfront]
    simp only [hlength, List.getLastD_concat, List.append_assoc, List.cons_append, List.nil_append]

/-- The round after the last word has been carried to the front. -/
theorem turn_front (first w : UInt32) (rest : List UInt32) :
    turn mix ((first :: w :: rest).toArray, 1) = ((first :: mix 1 w first :: rest).toArray, 2) :=
  (turn_append mix [] rest first w).trans (place_inside [first] rest w _ (show 2 < size by decide))

end Sweep

/-! ## Seeding -/

/-- A word of a new state is made of the one before it and its place. -/
def fillMix (i : Nat) (_ before : UInt32) : UInt32 := 1812433253 * fold30 before + i.toUInt32

def absorbMix (key : UInt32) (_ : Nat) (w before : UInt32) : UInt32 := (w ^^^ (fold30 before * 1664525)) + key

def spreadMix (i : Nat) (w before : UInt32) : UInt32 := (w ^^^ (fold30 before * 1566083941)) - i.toUInt32

theorem fill_eq (seed : UInt32) :
    fill seed = (seed :: sweep fillMix 1 seed (List.replicate (size - 1) 0)).toArray := by
  unfold fill
  generalize size - 1 = n
  induction n with
  | zero => rfl
  | succ n ih =>
    obtain ⟨front, hfront⟩ := exists_concat_sweep fillMix [] 1 seed (List.replicate n 0)
    have hlength : front.length = n := by simpa using congrArg List.length hfront.symm
    rw [List.range_succ, List.foldl_append, ih, List.replicate_succ', sweep_concat, ← List.cons_append,
      ← List.nil_append (seed :: _), hfront]
    simp [fillMix, hlength, Nat.add_comm 1 n]

/-- The words before the key is taken in, but for the first. -/
def filled : List UInt32 := sweep fillMix 1 19650218 (List.replicate (size - 1) 0)

/-- The words after the key has been taken in. -/
def absorbed (key : UInt32) : List UInt32 := sweep (absorbMix key) 1 19650218 filled

/-- The second word, which is mixed once more when the sweep has come round. -/
def again (key : UInt32) : UInt32 := absorbMix key 1 ((absorbed key).headD 0) ((absorbed key).getLastD 0)

/-- The words after the places have been mixed in. -/
def spreadOut (key : UInt32) : List UInt32 := sweep spreadMix 2 (again key) (absorbed key).tail

/-- The state of a seed of one word. -/
def seeded (key : UInt32) : List UInt32 :=
  0x80000000 :: spreadMix 1 (again key) ((spreadOut key).getLastD 0) :: spreadOut key

theorem length_filled : filled.length = size - 1 := by rw [filled, length_sweep, List.length_replicate]

theorem length_absorbed (key : UInt32) : (absorbed key).length = size - 1 := by
  rw [absorbed, length_sweep, length_filled]

theorem length_tail_absorbed (key : UInt32) : (absorbed key).tail.length = size - 2 := by
  rw [List.length_tail, length_absorbed, Nat.sub_sub]

theorem head_absorbed (key : UInt32) : absorbed key = (absorbed key).headD 0 :: (absorbed key).tail := by
  have hlength := length_absorbed key
  cases h : absorbed key with
  | nil => rw [h] at hlength; exact absurd hlength (by decide)
  | cons w ws => rfl

theorem absorb_word (key : UInt32) (state : Array UInt32 × Nat) (n : Nat) :
    Nat.repeat (absorb #[key]) n (state, 0) = (Nat.repeat (turn (absorbMix key)) n state, 0) := by
  induction n with
  | zero => rfl
  | succ n ih =>
    change absorb #[key] (Nat.repeat (absorb #[key]) n (state, 0)) = _
    rw [ih]
    simp [absorb, turn, absorbMix, Nat.repeat]

theorem length_seeded (key : UInt32) : (seeded key).length = size := by
  rw [seeded, List.length_cons, List.length_cons, spreadOut, length_sweep, length_tail_absorbed]
  rfl

theorem repeat_pred {α : Type} (f : α → α) {n : Nat} (hn : 0 < n) (a : α) :
    Nat.repeat f n a = f (Nat.repeat f (n - 1) a) := by
  cases n with
  | zero => exact absurd hn (Nat.lt_irrefl 0)
  | succ n => rfl

theorem repeat_absorb (key : UInt32) :
    Nat.repeat (turn (absorbMix key)) size (fill 19650218, 1) =
      (((absorbed key).getLastD 0 :: again key :: (absorbed key).tail).toArray, 2) := by
  have hne : filled ≠ [] := List.ne_nil_of_length_pos (length_filled ▸ by decide)
  have hlap := repeat_lap (absorbMix key) [] filled 19650218 hne (by rw [length_filled]; rfl)
  rw [length_filled] at hlap
  simp only [List.nil_append, List.length_nil, Nat.zero_add, List.set_cons_zero] at hlap
  rw [fill_eq, ← filled, repeat_pred _ (by decide), hlap, ← absorbed, head_absorbed key, turn_front, again]
  rfl

theorem repeat_spread (key : UInt32) :
    Nat.repeat spread (size - 1) (((absorbed key).getLastD 0 :: again key :: (absorbed key).tail).toArray, 2) =
      (((spreadOut key).getLastD 0 :: spreadMix 1 (again key) ((spreadOut key).getLastD 0) :: spreadOut key).toArray,
        2) := by
  have htail := length_tail_absorbed key
  have hne : (absorbed key).tail ≠ [] := List.ne_nil_of_length_pos (htail ▸ by decide)
  have hlap := repeat_lap spreadMix [(absorbed key).getLastD 0] (absorbed key).tail (again key) hne
    (by rw [htail]; rfl)
  rw [htail] at hlap
  simp only [List.cons_append, List.nil_append, List.length_cons, List.length_nil, Nat.zero_add,
    List.set_cons_zero] at hlap
  rw [repeat_pred _ (by decide), Nat.sub_sub, show spread = turn spreadMix from rfl, hlap, turn_front]
  rfl

theorem ofSeed_word (key : Nat) (h : key < 0x100000000) :
    ofSeed key = { words := (seeded key.toUInt32).toArray, position := size } := by
  have hkey : seedWords (key : Int).natAbs = [key.toUInt32] := by
    unfold seedWords
    simp [h]
  have hrounds : max size #[key.toUInt32].size = size := rfl
  unfold ofSeed
  simp only [hkey]
  rw [hrounds, absorb_word, repeat_absorb, repeat_spread]
  rfl

/-! ## The first words -/

theorem getD_setIfInBounds_ne {words : Array UInt32} {i k : Nat} (w : UInt32) (d : UInt32) (h : i ≠ k) :
    (words.setIfInBounds i w).getD k d = words.getD k d := by
  simp [Array.getD_eq_getD_getElem?, Array.getElem?_setIfInBounds_ne h]

theorem getD_setIfInBounds_self {words : Array UInt32} {i : Nat} (w : UInt32) (d : UInt32) (h : i < words.size) :
    (words.setIfInBounds i w).getD i d = w := by
  simp [Array.getD_eq_getD_getElem?, Array.getElem?_setIfInBounds_self_of_lt h]

/-- Words are replaced in their order: those from place `n` on are still old when `n` have been replaced,
and the words before them that are made of old words alone are known. -/
theorem twist_replaced (words : Array UInt32) (hsize : words.size = size) (n : Nat) (k : Nat) :
    let replaced := (List.range n).foldl (fun words i => words.setIfInBounds i (twistAt words i)) words
    replaced.size = size ∧ (n ≤ k → replaced.getD k 0 = words.getD k 0) ∧
      (k < n → k + 397 < size → replaced.getD k 0 = twistAt words k) := by
  induction n generalizing k with
  | zero => simp [hsize]
  | succ n ih =>
    rw [List.range_succ, List.foldl_append]
    generalize hr : (List.range n).foldl _ words = replaced at ih
    obtain ⟨hlength, -, -⟩ := ih 0
    have hold : ∀ k, n ≤ k → replaced.getD k 0 = words.getD k 0 := fun k hk => (ih k).2.1 hk
    simp only [List.foldl_cons, List.foldl_nil]
    refine ⟨by simpa using hlength, fun hk => ?_, fun hk hfar => ?_⟩
    · rw [getD_setIfInBounds_ne _ _ (by omega), hold k (by omega)]
    · rcases Nat.lt_succ_iff_lt_or_eq.mp hk with hk | rfl
      · rw [getD_setIfInBounds_ne _ _ (by omega), (ih k).2.2 hk hfar]
      · have hinside : k < replaced.size := by omega
        have hnext : (k + 1) % size = k + 1 := Nat.mod_eq_of_lt (by omega)
        have hahead : (k + 397) % size = k + 397 := Nat.mod_eq_of_lt hfar
        simp only [getD_setIfInBounds_self _ _ hinside, twistAt, hnext, hahead, hold k (by omega),
          hold (k + 1) (by omega), hold (k + 397) (by omega)]

theorem getD_twist {words : Array UInt32} (hsize : words.size = size) {k : Nat} (hk : k + 397 < size) :
    (twist words).getD k 0 = twistAt words k :=
  (twist_replaced words hsize size k).2.2 (by omega) hk

theorem next_of_spent (words : Array UInt32) :
    next { words, position := size } = next { words := twist words, position := 0 } := by
  have hspent : ¬ size < size := Nat.lt_irrefl size
  have hfresh : 0 < size := by decide
  unfold next
  simp only [hspent, hfresh, if_false, if_true]

theorem next_of_lt (words : Array UInt32) {position : Nat} (h : position < size) :
    next { words, position } = (temper (words.getD position 0), { words, position := position + 1 }) := by
  unfold next
  simp only [h, if_true]

/-- A word that is accepted is drawn at once. -/
theorem below_of_lt {n : Nat} {g : Generator} (h : g.next.1.toNat >>> (32 - bitLength n) < n) :
    g.below n = (g.next.1.toNat >>> (32 - bitLength n), g.next.2) := by
  unfold below belowWithin
  simp only [h, if_true]

end ApiManual.Generator
