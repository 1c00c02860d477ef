import Mathlib.Data.List.Infix

/-!
# Joining with a doubled separator

Lists over an alphabet are joined by writing the letter `c` twice between two of them,
and split again at the leftmost occurrences of the doubled letter.  Joining forgets
where the segments begin and end exactly when a segment leans on a separator, that is
when it ends or begins with `c` next to one, or is empty between two of them.  On
segments that do not have `c` at all, splitting inverts joining, and one joined list is
a prefix of another when its last segment is a prefix of the segment facing it.  Joining
inverts splitting on every list.
-/

namespace Separator

variable {α : Type*} (c : α)

/-- The segments one after another, with `c` written twice between two of them. -/
def join : List (List α) → List α
  | [] => []
  | [s] => s
  | s :: t :: ss => s ++ c :: c :: join (t :: ss)

/-- The pieces of a list between the leftmost occurrences of the doubled `c`. -/
def split [DecidableEq α] : List α → List (List α)
  | [] => [[]]
  | [a] => [[a]]
  | a :: b :: l =>
    if a = c ∧ b = c then [] :: split l
    else (split (b :: l)).modifyHead (a :: ·)

/-- No segment leans on a separator: a segment followed by another does not end with
`c`, a segment following another does not begin with `c`, and a segment between two
others is not empty. -/
def Spaced : List (List α) → Prop
  | s :: t :: ss =>
    ¬ [c] <:+ s ∧ ¬ [c] <+: t ∧ (t = [] → ss = []) ∧ Spaced (t :: ss)
  | _ => True

/-- No segment contains the separator. -/
def Undoubled (ss : List (List α)) : Prop :=
  ∀ s ∈ ss, ¬ [c, c] <:+: s

/-- No segment contains the letter of the separator. -/
def Free (ss : List (List α)) : Prop :=
  ∀ s ∈ ss, c ∉ s

variable {c}

theorem join_cons {s : List α} {ss : List (List α)} (h : ss ≠ []) :
  join c (s :: ss) = s ++ c :: c :: join c ss
  := by
  cases ss with
  | nil => contradiction
  | cons t ss => rfl

/-- Joining one segment more. -/
theorem join_concat {ss : List (List α)} {s : List α} (h : ss ≠ []) :
  join c (ss ++ [s]) = join c ss ++ c :: c :: s
  := by
  induction ss with
  | nil => contradiction
  | cons t ss ih =>
    cases ss with
    | nil => rfl
    | cons u ss =>
      rw [List.cons_append, join_cons (List.append_ne_nil_of_right_ne_nil _ (by simp)),
        ih (by simp), join_cons (c := c) (s := t) (by simp)]
      simp

theorem Undoubled.cons {s : List α} {ss : List (List α)} :
  Undoubled c (s :: ss) ↔ ¬ [c, c] <:+: s ∧ Undoubled c ss
  := List.forall_mem_cons

theorem Free.cons {s : List α} {ss : List (List α)} :
  Free c (s :: ss) ↔ c ∉ s ∧ Free c ss
  := List.forall_mem_cons

/-! ### Joining is injective on spaced segments -/

/-- A segment without the separator and not ending with `c` is recovered from what
it is followed by the separator in. -/
theorem append_separator_inj
    {s t x y : List α} (hs : ¬ [c, c] <:+: s) (ht : ¬ [c, c] <:+: t) (hs' : ¬ [c] <:+ s)
    (ht' : ¬ [c] <:+ t) (h : s ++ c :: c :: x = t ++ c :: c :: y) :
  s = t ∧ x = y
  := by
  obtain ⟨u, rfl, hu⟩ | ⟨u, rfl, hu⟩ := List.append_eq_append_iff.mp h
  · match u with
    | [] => simpa using hu
    | [a] =>
      obtain ⟨rfl, -⟩ := List.cons_eq_cons.mp hu
      exfalso
      apply ht' (List.suffix_append _ _)
    | a :: b :: u =>
      obtain ⟨rfl, rfl, -⟩ : c = a ∧ c = b ∧ _ := by simpa using hu
      exfalso
      apply ht
      use s, u
      simp
  · match u with
    | [] => simpa using hu.symm
    | [a] =>
      obtain ⟨rfl, -⟩ := List.cons_eq_cons.mp hu
      exfalso
      apply hs' (List.suffix_append _ _)
    | a :: b :: u =>
      obtain ⟨rfl, rfl, -⟩ : c = a ∧ c = b ∧ _ := by simpa using hu
      exfalso
      apply hs
      use t, u
      simp

/-- The letter `c` three times in a row in a list followed by the separator is in the
list, or what follows leans on the separator. -/
theorem triple_infix_append
    {s r : List α} (h : [c, c, c] <:+: s ++ c :: c :: r) (hs : ¬ [c, c] <:+: s)
    (hs' : ¬ [c] <:+ s) :
  [c] <+: r ∨ [c, c, c] <:+: r
  := by
  induction s with
  | nil =>
    obtain h | h := List.infix_cons_iff.mp h
    · left
      simpa using h
    obtain h | h := List.infix_cons_iff.mp h
    · left
      have h : [c, c] <+: r := by simpa using h
      apply (List.prefix_append [c] [c]).trans h
    · right
      apply h
  | cons a s ih =>
    obtain h | h := List.infix_cons_iff.mp h
    · exfalso
      cases s with
      | nil =>
        obtain ⟨rfl, -⟩ := List.cons_prefix_cons.mp h
        apply hs' (List.suffix_refl _)
      | cons b s =>
        obtain ⟨ha, hbs⟩ := List.cons_prefix_cons.mp h
        obtain ⟨hb, -⟩ := List.cons_prefix_cons.mp hbs
        apply hs
        use [], s
        rw [← ha, ← hb]
        rfl
    · apply ih h
      · intro h'
        apply hs (List.infix_cons h')
      · intro h'
        apply hs' (h'.trans (List.suffix_cons _ _))

/-- Spaced segments are joined without writing `c` three times in a row. -/
theorem Spaced.not_triple {ss : List (List α)} (h : Spaced c ss) (hd : Undoubled c ss) :
  ¬ [c, c, c] <:+: join c ss
  := by
  match ss with
  | [] => simp [join]
  | [s] =>
    intro h'
    apply hd s (by simp)
    apply List.IsInfix.trans _ h'
    use [], [c]
    rfl
  | s :: t :: ss =>
    obtain ⟨hs, ht, hne, hss⟩ := h
    obtain ⟨hds, hdt⟩ := Undoubled.cons.mp hd
    intro h'
    obtain h' | h' := triple_infix_append h' hds hs
    · cases ss with
      | nil => apply ht h'
      | cons u ss =>
        obtain ⟨a, t, rfl⟩ := List.exists_cons_of_ne_nil (l := t) (by simpa using hne)
        rw [join, List.cons_append, List.cons_prefix_cons] at h'
        apply ht
        simp [h'.1]
    · apply hss.not_triple hdt h'

/-- Two lists of segments, one of them spaced, that are joined to the same list are
equal. -/
theorem Spaced.join_inj
    {ss ts : List (List α)} (h : Spaced c ss) (hss : ss ≠ []) (hts : ts ≠ [])
    (hds : Undoubled c ss) (hdt : Undoubled c ts) (heq : join c ts = join c ss) :
  ts = ss
  := by
  induction ts generalizing ss with
  | nil => contradiction
  | cons t ts ih =>
    obtain ⟨ht, hdts⟩ := Undoubled.cons.mp hdt
    match ss with
    | [] => contradiction
    | [s] =>
      cases ts with
      | nil => simpa [join] using heq
      | cons u ts =>
        exfalso
        apply hds s (by simp)
        use t, join c (u :: ts)
        simpa [join] using heq
    | s :: s' :: ss =>
      have triple := h.not_triple hds
      obtain ⟨hs, -, -, hsp⟩ := h
      obtain ⟨hds, hdss⟩ := Undoubled.cons.mp hds
      cases ts with
      | nil =>
        exfalso
        apply ht
        use s, join c (s' :: ss)
        simpa [join] using heq.symm
      | cons u ts =>
        -- a segment of `ts` ending with `c` would write `c` three times in a row
        have hts : ¬ [c] <:+ t := by
          rintro ⟨t, rfl⟩
          apply triple
          rw [← heq]
          use t, join c (u :: ts)
          simp [join]
        obtain ⟨rfl, htail⟩ := append_separator_inj ht hds hts hs heq
        rw [ih hsp (by simp) (by simp) hdss hdts htail]

/-- Writing `c` before a list that does not begin with it does not double it. -/
theorem not_double_cons {s : List α} (h : ¬ [c, c] <:+: s) (h' : ¬ [c] <+: s) :
  ¬ [c, c] <:+: c :: s
  := by
  simp only [List.infix_cons_iff, List.cons_prefix_cons, true_and, not_or]
  use h'

/-- Writing `c` after a list that does not end with it does not double it. -/
theorem not_double_concat {s : List α} (h : ¬ [c, c] <:+: s) (h' : ¬ [c] <:+ s) :
  ¬ [c, c] <:+: s ++ [c]
  := by
  rw [← List.reverse_infix, List.reverse_append]
  apply not_double_cons
  · rw [← List.reverse_infix] at h
    apply h
  · rw [← List.reverse_prefix] at h'
    apply h'

/-- Segments that are not spaced are joined to what other segments are joined to. -/
theorem exists_join_eq_of_not_spaced
    {ss : List (List α)} (h : ¬ Spaced c ss) (hd : Undoubled c ss) :
  ∃ ts, ts ≠ [] ∧ Undoubled c ts ∧ join c ts = join c ss ∧ ts ≠ ss
  := by
  match ss with
  | [] => simp [Spaced] at h
  | [s] => simp [Spaced] at h
  | s :: t :: ss =>
    obtain ⟨hds, hd'⟩ := Undoubled.cons.mp hd
    by_cases hsp : Spaced c (t :: ss)
    case neg =>
      obtain ⟨ts, hts, hdts, heq, hne⟩ := exists_join_eq_of_not_spaced hsp hd'
      use s :: ts, by simp, Undoubled.cons.mpr ⟨hds, hdts⟩
      constructor
      · rw [join_cons hts, join_cons (by simp), heq]
      · simpa using hne
    obtain ⟨hdt, hdss⟩ := Undoubled.cons.mp hd'
    -- what follows `t`, with the separator before it
    obtain ⟨r, hr⟩ : ∃ r, ∀ t, join c (t :: ss) = t ++ r := by
      cases ss with
      | nil => exact ⟨[], by simp [join]⟩
      | cons u ss => exact ⟨c :: c :: join c (u :: ss), fun t => rfl⟩
    have hjoin (s t : List α) : join c (s :: t :: ss) = s ++ c :: c :: (t ++ r) := by
      rw [join, hr]
    by_cases hs : [c] <:+ s
    · obtain ⟨s, rfl⟩ := hs
      have hds : ¬ [c, c] <:+: s := fun h => hds (h.trans (List.prefix_append _ _).isInfix)
      by_cases ht : [c] <+: t
      · obtain ⟨t, rfl⟩ := ht
        have hdt : ¬ [c, c] <:+: t := fun h => hdt (h.trans (List.suffix_append _ _).isInfix)
        use s :: [] :: t :: ss, by simp
        constructor
        · simp [Undoubled.cons, hds, hdt, hdss]
        constructor
        · rw [join, join, hjoin, hr]
          simp
        · simp
      · use s :: (c :: t) :: ss, by simp
        have hdt := not_double_cons hdt ht
        constructor
        · simp [Undoubled.cons, hds, hdt, hdss]
        constructor
        · rw [hjoin, hjoin]
          simp
        · simp
    have hdsc := not_double_concat hds hs
    by_cases ht : [c] <+: t
    · obtain ⟨t, rfl⟩ := ht
      have hdt : ¬ [c, c] <:+: t := fun h => hdt (h.trans (List.suffix_append _ _).isInfix)
      use (s ++ [c]) :: t :: ss, by simp
      constructor
      · simp [Undoubled.cons, hdsc, hdt, hdss]
      constructor
      · rw [hjoin, hjoin]
        simp
      · simp
    -- only an empty segment before another one is left
    obtain ⟨rfl, hss⟩ : t = [] ∧ ss ≠ [] := by
      simp only [Spaced, hs, ht, hsp, not_false_eq_true, true_and, and_true] at h
      simpa using h
    obtain ⟨u, ss, rfl⟩ := List.exists_cons_of_ne_nil hss
    obtain ⟨hdu, hdss⟩ := Undoubled.cons.mp hdss
    have hu : ¬ [c] <+: u := hsp.2.1
    have hdcu := not_double_cons hdu hu
    use (s ++ [c]) :: (c :: u) :: ss, by simp
    constructor
    · simp [Undoubled.cons, hdsc, hdcu, hdss]
    constructor
    · cases ss with
      | nil => simp [join]
      | cons v ss => simp [join]
    · simp

/-- Among the lists of segments without the separator, the spaced ones are those that
no other list is joined to the same list as. -/
theorem join_inj_iff_spaced {ss : List (List α)} (hss : ss ≠ []) (hd : Undoubled c ss) :
  (∀ ts, ts ≠ [] → Undoubled c ts → join c ts = join c ss → ts = ss) ↔ Spaced c ss
  := by
  constructor
  · intro h
    by_contra hsp
    obtain ⟨ts, hts, hdt, heq, hne⟩ := exists_join_eq_of_not_spaced hsp hd
    apply hne (h ts hts hdt heq)
  · intro h ts hts hdt heq
    apply h.join_inj hss hts hd hdt heq

/-! ### Segments without the letter of the separator -/

/-- Where the letter `c` first occurs cuts a list in one way. -/
theorem append_cons_prefix_iff {s t x y : List α} (hs : c ∉ s) (ht : c ∉ t) :
  s ++ c :: x <+: t ++ c :: y ↔ s = t ∧ x <+: y
  := by
  induction s generalizing t with
  | nil =>
    cases t with
    | nil => simp
    | cons b t =>
      have hb : c ≠ b := by
        rintro rfl
        apply ht List.mem_cons_self
      simp [hb]
  | cons a s ih =>
    cases t with
    | nil =>
      have ha : a ≠ c := by
        rintro rfl
        apply hs List.mem_cons_self
      simp [ha]
    | cons b t =>
      rw [List.mem_cons, not_or] at hs ht
      simp [ih hs.2 ht.2, and_assoc]

/-- A list without the letter `c` is a prefix of another up to where the letter occurs
in it only. -/
theorem prefix_append_cons_iff {s t x : List α} (hs : c ∉ s) :
  s <+: t ++ c :: x ↔ s <+: t
  := by
  constructor
  · intro h
    obtain h' | ⟨u, rfl⟩ := List.prefix_or_prefix_of_prefix h (List.prefix_append t (c :: x))
    · apply h'
    · cases u with
      | nil => simp
      | cons a u =>
        rw [List.prefix_append_right_inj, List.cons_prefix_cons] at h
        simp [h.1] at hs
  · intro h
    apply h.trans (List.prefix_append _ _)

/-- `Faces ps ks` when the last segment of `ps` is a prefix of the segment of `ks` facing
it and the segments before are the same. -/
def Faces (ps ks : List (List α)) : Prop :=
  ∃ pre l x rest, ps = pre ++ [l] ∧ ks = pre ++ (l ++ x) :: rest

theorem faces_singleton {p k : List α} {ks : List (List α)} :
  Faces [p] (k :: ks) ↔ p <+: k
  := by
  constructor
  · rintro ⟨pre, l, x, rest, h, h'⟩
    cases pre with
    | nil =>
      obtain rfl := List.singleton_inj.mp h
      obtain ⟨rfl, -⟩ := List.cons_eq_cons.mp h'
      apply List.prefix_append
    | cons q pre => simp at h
  · rintro ⟨x, rfl⟩
    use [], p, x, ks
    simp

theorem faces_cons {p k q : List α} {ps ks : List (List α)} :
  Faces (p :: q :: ps) (k :: ks) ↔ p = k ∧ Faces (q :: ps) ks
  := by
  constructor
  · rintro ⟨pre, l, x, rest, h, h'⟩
    cases pre with
    | nil => simp at h
    | cons r pre =>
      obtain ⟨rfl, hps⟩ := List.cons_eq_cons.mp h
      obtain ⟨rfl, hks⟩ := List.cons_eq_cons.mp h'
      use rfl, pre, l, x, rest, hps, hks
  · rintro ⟨rfl, pre, l, x, rest, h, h'⟩
    use p :: pre, l, x, rest
    rw [h, h']
    simp

/-- One joined list is a prefix of another exactly when its segments face the other's. -/
theorem join_prefix_join_iff
    {ps ks : List (List α)} (hps : ps ≠ []) (hks : ks ≠ []) (hp : Free c ps) (hk : Free c ks) :
  join c ps <+: join c ks ↔ Faces ps ks
  := by
  induction ps generalizing ks with
  | nil => contradiction
  | cons p ps ih =>
    obtain ⟨k, ks, rfl⟩ := List.exists_cons_of_ne_nil hks
    obtain ⟨hcp, hcps⟩ := Free.cons.mp hp
    obtain ⟨hck, hcks⟩ := Free.cons.mp hk
    cases ps with
    | nil =>
      rw [faces_singleton]
      cases ks with
      | nil => rfl
      | cons k' ks => apply prefix_append_cons_iff hcp
    | cons p' ps =>
      rw [faces_cons]
      cases ks with
      | nil =>
        -- the prefix has the letter of the separator, the other list does not
        constructor
        · rintro h
          exfalso
          apply hck
          apply h.mem
          simp [join]
        · rintro ⟨-, pre, l, x, rest, -, h⟩
          simp at h
      | cons k' ks =>
        rw [join, join, append_cons_prefix_iff hcp hck, List.cons_prefix_cons,
          ih (by simp) (by simp) hcps hcks]
        simp

/-- A list without the letter `c` is its only piece. -/
theorem split_eq_singleton [DecidableEq α] {s : List α} (h : c ∉ s) :
  split c s = [s]
  := by
  induction s using split.induct c with
  | case1 => rfl
  | case2 a => rfl
  | case3 a b l heq => simp [heq.1] at h
  | case4 a b l hne ih =>
    rw [split, if_neg hne, ih (fun h' => h (List.mem_cons_of_mem _ h'))]
    rfl

/-- A list without the letter `c`, followed by the separator, is the first piece. -/
theorem split_append_separator [DecidableEq α] {s x : List α} (h : c ∉ s) :
  split c (s ++ c :: c :: x) = s :: split c x
  := by
  induction s with
  | nil => simp [split]
  | cons a s ih =>
    rw [List.mem_cons, not_or] at h
    obtain ⟨b, l, hl⟩ : ∃ b l, s ++ c :: c :: x = b :: l := by
      cases s with
      | nil => exact ⟨c, c :: x, rfl⟩
      | cons b s => exact ⟨b, s ++ c :: c :: x, rfl⟩
    rw [List.cons_append, hl, split, if_neg (fun h' => h.1 h'.1.symm), ← hl, ih h.2]
    rfl

/-- Splitting joined segments gives the segments back. -/
theorem split_join [DecidableEq α] {ss : List (List α)} (hss : ss ≠ []) (h : Free c ss) :
  split c (join c ss) = ss
  := by
  induction ss with
  | nil => contradiction
  | cons s ss ih =>
    obtain ⟨hs, hfree⟩ := Free.cons.mp h
    cases ss with
    | nil => apply split_eq_singleton hs
    | cons t ss =>
      rw [join, split_append_separator hs, ih (by simp) hfree]

/-! ### Splitting any list -/

theorem split_ne_nil [DecidableEq α] (l : List α) :
  split c l ≠ []
  := by
  induction l using split.induct c with
  | case1 => simp [split]
  | case2 a => simp [split]
  | case3 a b l heq => simp [split, heq]
  | case4 a b l hne ih => simpa [split, hne] using ih

/-- Writing a letter before the first segment writes it before the joined list. -/
theorem join_modifyHead {ss : List (List α)} (a : α) (h : ss ≠ []) :
  join c (ss.modifyHead (a :: ·)) = a :: join c ss
  := by
  match ss with
  | [] => contradiction
  | [s] => rfl
  | s :: t :: ss => rfl

/-- Joining the pieces of a list gives the list back. -/
theorem join_split [DecidableEq α] (l : List α) :
  join c (split c l) = l
  := by
  induction l using split.induct c with
  | case1 => rfl
  | case2 a => rfl
  | case3 a b l heq ih =>
    obtain ⟨rfl, rfl⟩ := heq
    rw [split, if_pos ⟨rfl, rfl⟩, join_cons (split_ne_nil l), ih]
    rfl
  | case4 a b l hne ih =>
    rw [split, if_neg hne, join_modifyHead a (split_ne_nil (b :: l)), ih]

theorem prefix_join {s : List α} {ss : List (List α)} :
  s <+: join c (s :: ss)
  := by
  cases ss with
  | nil => apply List.prefix_refl
  | cons t ss => apply List.prefix_append

/-- No piece contains the separator: the pieces are cut at its leftmost occurrences. -/
theorem undoubled_split [DecidableEq α] (l : List α) :
  Undoubled c (split c l)
  := by
  induction l using split.induct c with
  | case1 => simp [split, Undoubled]
  | case2 a => simp [split, Undoubled, List.infix_cons_iff]
  | case3 a b l heq ih =>
    rw [split, if_pos heq, Undoubled.cons]
    use by simp, ih
  | case4 a b l hne ih =>
    obtain ⟨p, ps, hp⟩ := List.exists_cons_of_ne_nil (split_ne_nil (c := c) (b :: l))
    have hjoin := join_split (c := c) (b :: l)
    rw [hp] at ih hjoin
    obtain ⟨hdp, hdps⟩ := Undoubled.cons.mp ih
    rw [split, if_neg hne, hp, List.modifyHead_cons, Undoubled.cons, List.infix_cons_iff]
    use ?_, hdps
    rintro (h | h)
    · -- the first piece begins as `b :: l` does
      obtain ⟨ha, h⟩ := List.cons_prefix_cons.mp h
      have hb : [c] <+: b :: l := by
        rw [← hjoin]
        apply h.trans prefix_join
      apply hne ⟨ha.symm, (List.cons_prefix_cons.mp hb).1.symm⟩
    · apply hdp h

end Separator
