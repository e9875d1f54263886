import Letterhead.Proofs.Run.Fate
import Letterhead.Proofs.Tree.Walk

/-!
A run as a row of turns.

Each turn changes the node in one place or none, and no path leads elsewhere afterwards, so the
places can be told from the tree before the run. Where the files of a run are in different places,
what one turn writes is there in the end.
-/

namespace Letterhead

open Letterhead.Tree

/-! ### How trees come about in a run -/

namespace Tree

/-- The second tree comes about from the first one in a run. -/
structure Later (t u : Tree) : Prop where
  place : ∀ path l, u.locate path false = .ok l → t.locate path false = .ok l
  mode : ∀ path bs m, t.read path = .ok bs → t.modeAt path = .ok m →
    (∃ bs', u.read path = .ok bs') ∧ u.modeAt path = .ok m

variable {t u w : Tree}

lemma Later.refl (t : Tree) : t.Later t := ⟨fun _ _ h => h, fun _ bs _ h h' => ⟨⟨bs, h⟩, h'⟩⟩

lemma Later.trans (h : t.Later u) (h' : u.Later w) : t.Later w where
  place path l hl := h.place path l (h'.place path l hl)
  mode path bs m hread hmode := by
    obtain ⟨⟨bs', hread'⟩, hmode'⟩ := h.mode path bs m hread hmode
    exact h'.mode path bs' m hread' hmode'

lemma Later.of_isSame (h : u.IsSame t) : t.Later u := by
  have halike : ∀ path, t.Alike u path := fun path =>
    ⟨h.base, fun x _ => by rw [h.nodeAt], fun l _ => by rw [h.nodeAt]⟩
  have hlocate := fun path last => (halike path).locate last
  refine ⟨fun path l hl => hlocate path false ▸ hl, fun path bs m hread hmode => ?_⟩
  rw [read_congr (hlocate path true) (halike path).found,
    modeAt_congr (hlocate path true) (halike path).found]
  exact ⟨⟨bs, hread⟩, hmode⟩

lemma Later.of_rewrites {place : Location} {data : Bytes} {mode : Nat}
    (h : t.Rewrites u place data mode) : t.Later u :=
  ⟨fun _ _ hl => h.locate_false hl, fun _ _ _ hread hmode => h.modeAt hread hmode⟩

lemma Apart.of_later {files : List String} (hapart : t.Apart files) (h : t.Later u) :
    u.Apart files :=
  hapart.imp fun hne l hl hl' => hne l (h.place _ l hl) (h.place _ l hl')

end Tree

/-! ### Turns -/

/-- One file has its turn. -/
structure Turn where
  before : Tree
  fix : FileFix

namespace Settings

variable {s : Settings} {obstacles : Obstacles} {t u : Tree} {path : String}
  {files : List String} {r r' : FixReport}

/-- The turns of a run, up to one that ends it. -/
def turns (s : Settings) (obstacles : Obstacles) : Tree → List String → List Turn
  | _, [] => []
  | t, f :: rest =>
    match s.fixFile obstacles t f with
    | (.ok fix, u) => ⟨t, fix⟩ :: turns s obstacles u rest
    | (.error _, _) => []

lemma fixFile_of_mem_turns {τ : Turn} (h : τ ∈ s.turns obstacles t files) :
    ∃ w, s.fixFile obstacles τ.before τ.fix.path = (.ok τ.fix, w) := by
  induction files generalizing t with
  | nil => cases h
  | cons f files ih =>
    rw [turns] at h
    split at h
    · next fix w hfix =>
      rcases List.mem_cons.mp h with rfl | h
      · exact ⟨w, by rw [(fixFile_cases hfix).1, hfix]⟩
      · exact ih h
    · cases h

lemma fixFiles_cons {f : String} (h : s.fixFiles obstacles r t (f :: files) = (.ok r', u)) :
    ∃ fix w, s.fixFile obstacles t f = (.ok fix, w) ∧
      s.fixFiles obstacles (r.record fix) w files = (.ok r', u) ∧
      s.turns obstacles t (f :: files) = ⟨t, fix⟩ :: s.turns obstacles w files := by
  rw [fixFiles] at h
  split at h
  · next fix w hfix => exact ⟨fix, w, hfix, h, by rw [turns, hfix]⟩
  · cases h

lemma report_of_turns (h : s.fixFiles obstacles r t files = (.ok r', u)) :
    (s.turns obstacles t files).map (·.fix.path) = files ∧
      r' = ((s.turns obstacles t files).map (·.fix)).foldl FixReport.record r := by
  induction files generalizing t r with
  | nil =>
    obtain ⟨hr, -⟩ := Prod.mk.inj h
    exact ⟨rfl, (Except.ok.inj hr).symm⟩
  | cons f files ih =>
    obtain ⟨fix, w, hfix, hrest, hturns⟩ := fixFiles_cons h
    obtain ⟨hpaths, hreport⟩ := ih hrest
    rw [hturns, List.map_cons, List.map_cons, List.foldl_cons, hpaths, ← hreport,
      (fixFile_cases hfix).1]
    exact ⟨rfl, rfl⟩

lemma turn_step {f : FileFix} (h : s.fixFile obstacles t path = (.ok f, u)) :
    t.Later u ∧
      ∀ l, (f.IsChange → t.locate path false ≠ .ok l) → u.nodeAt l = t.nodeAt l := by
  obtain ⟨-, -, ⟨-, hsame⟩ | ⟨hch, -, data, place, mode, -, -, hplace, -, hrewrites⟩⟩ :=
    fixFile_cases h
  · exact ⟨.of_isSame hsame, fun l _ => by rw [hsame.nodeAt]⟩
  · refine ⟨.of_rewrites hrewrites, fun l hl => hrewrites.nodeAt_of_ne ?_⟩
    rintro rfl
    exact hl hch hplace

/-- **A run changes nothing but the places of the files that it changes**, and no path leads
elsewhere on the way. -/
lemma turns_frame (h : s.fixFiles obstacles r t files = (.ok r', u)) :
    (∀ τ ∈ s.turns obstacles t files, t.Later τ.before) ∧
      ∀ l, (∀ τ ∈ s.turns obstacles t files, τ.fix.IsChange →
        t.locate τ.fix.path false ≠ .ok l) → u.nodeAt l = t.nodeAt l := by
  induction files generalizing t r with
  | nil =>
    obtain ⟨-, rfl⟩ := Prod.mk.inj h
    exact ⟨by simp [turns], fun _ _ => rfl⟩
  | cons f files ih =>
    obtain ⟨fix, w, hfix, hrest, hturns⟩ := fixFiles_cons h
    obtain ⟨hlater, hstep⟩ := turn_step hfix
    obtain ⟨hlaters, hframe⟩ := ih hrest
    rw [hturns]
    refine ⟨List.forall_mem_cons.mpr ⟨.refl t, fun τ hτ => hlater.trans (hlaters τ hτ)⟩,
      fun l hl => ?_⟩
    obtain ⟨hhead, htail⟩ := List.forall_mem_cons.mp hl
    rw [hframe l fun τ hτ hch hplace => htail τ hτ hch (hlater.place _ l hplace)]
    refine hstep l fun hch => ?_
    rw [← (fixFile_cases hfix).1]
    exact hhead hch

/-- The place of a file before and after its turn. -/
structure Replaced (s : Settings) (t u : Tree) (τ : Turn) (place : Location) (bs data : Bytes)
    (mode : Nat) : Prop where
  /-- The place is the one that the path led to before the run. -/
  locate : t.locate τ.fix.path false = .ok place
  /-- What comes in is the normal form of what was read. -/
  read : τ.before.read τ.fix.path = .ok bs
  normal : s.NormalizesTo τ.fix.path bs τ.fix.outcome data
  /-- The mode is that of what the path led to, then and before the run. -/
  modeAt : τ.before.modeAt τ.fix.path = .ok mode
  modeAt_first : ∀ bs' m, t.read τ.fix.path = .ok bs' → t.modeAt τ.fix.path = .ok m → m = mode
  /-- In the place stood a link, or the file that was read. -/
  old : (∃ target, t.nodeAt place = some (.link target)) ∨ t.nodeAt place = some (.file bs mode)
  new : u.nodeAt place = some (.file data mode)

lemma exists_replaced {w : Tree} {f : FileFix} (h : s.fixFile obstacles t path = (.ok f, w))
    (hch : f.IsChange) : ∃ place bs data mode, s.Replaced t w ⟨t, f⟩ place bs data mode := by
  obtain ⟨hpath, -, ⟨hno, -⟩ | ⟨-, bs, data, place, mode, hread, hnormal, hplace, hmode,
    hrewrites⟩⟩ := fixFile_cases h
  · exact absurd hch hno
  rw [← hpath] at hread hnormal hplace hmode
  refine ⟨place, bs, data, mode, hplace, hread, hnormal, hmode, ?_, ?_, hrewrites.nodeAt_place⟩
  · intro bs' m _ hm
    exact Except.ok.inj (hm.symm.trans hmode)
  · obtain ⟨l, mode', place', -, hfile, hmode', hplace', hl⟩ := exists_of_read hread
    obtain rfl := Except.ok.inj (hplace'.symm.trans hplace)
    obtain rfl := Except.ok.inj (hmode'.symm.trans hmode)
    rcases hl with rfl | hlink
    · exact .inr hfile
    · exact .inl hlink.link

namespace Replaced

variable {w : Tree} {τ : Turn} {place : Location} {bs data : Bytes} {mode : Nat}

lemma trans (h : s.Replaced t w τ place bs data mode) (hsame : u.nodeAt place = w.nodeAt place) :
    s.Replaced t u τ place bs data mode :=
  { h with new := hsame.trans h.new }

lemma of_later (h : s.Replaced w u τ place bs data mode) (hlater : t.Later w)
    (hsame : w.nodeAt place = t.nodeAt place) : s.Replaced t u τ place bs data mode := by
  refine ⟨hlater.place _ _ h.locate, h.read, h.normal, h.modeAt, ?_, hsame ▸ h.old, h.new⟩
  intro bs' m hread hmode
  obtain ⟨⟨bs'', hread'⟩, hmode'⟩ := hlater.mode _ bs' m hread hmode
  exact h.modeAt_first bs'' m hread' hmode'

end Replaced

lemma turns_replaced (hapart : t.Apart files)
    (h : s.fixFiles obstacles r t files = (.ok r', u)) :
    ∀ τ ∈ s.turns obstacles t files, τ.fix.IsChange →
      ∃ place bs data mode, s.Replaced t u τ place bs data mode := by
  induction files generalizing t r with
  | nil => simp [turns]
  | cons f files ih =>
    obtain ⟨fix, w, hfix, hrest, hturns⟩ := fixFiles_cons h
    obtain ⟨hlater, hstep⟩ := turn_step hfix
    obtain ⟨hf, hapart'⟩ := List.pairwise_cons.mp hapart
    have hpath : fix.path = f := (fixFile_cases hfix).1
    -- no two turns come to the same place
    have hothers : ∀ τ ∈ s.turns obstacles w files, ∀ place, t.locate f false = .ok place →
        t.locate τ.fix.path false ≠ .ok place := fun τ hτ place =>
      hf τ.fix.path ((report_of_turns hrest).1 ▸ List.mem_map_of_mem hτ) place
    rw [hturns]
    refine List.forall_mem_cons.mpr ⟨fun hch => ?_, fun τ hτ hch => ?_⟩
    · obtain ⟨place, bs, data, mode, hfirst⟩ := exists_replaced hfix hch
      have hplace : t.locate f false = .ok place := hpath ▸ hfirst.locate
      exact ⟨place, bs, data, mode, hfirst.trans ((turns_frame hrest).2 place
        fun τ hτ _ hτplace => hothers τ hτ place hplace (hlater.place _ _ hτplace))⟩
    · obtain ⟨place, bs, data, mode, hτ'⟩ := ih (Apart.of_later hapart' hlater) hrest τ hτ hch
      exact ⟨place, bs, data, mode, hτ'.of_later hlater (hstep place fun _ hfplace =>
        hothers τ hτ place hfplace (hlater.place _ _ hτ'.locate))⟩

end Settings

end Letterhead
