import ClientLoom.FileSystem.Store
import ClientLoom.Proofs.Outcomes
import ClientLoom.Proofs.PathSegments

/-!
# Growth of a file system

A path that can be followed leads to the place that its text names.  A file system has `Grown` if
directories were made where nothing stood and files were written at certain places only.  Growth
changes nothing about a path that could be followed before, so what a path gave there it still
gives, unless nothing was found.  A file that was not found although it stood at its place is
`Hidden`: growth may bring it to light.  A file system where whatever stands somewhere stands in a
directory is `Rooted`, and growth keeps it so.
-/

namespace ClientLoom

namespace FileSystem

/-! ## Places -/

/-- Where a segment leads by its text, whatever stands there. -/
def stepPlace (location : Location) (segment : List Char) : Location :=
  if segment = [] ∨ segment = ['.'] then location
  else if segment = ['.', '.'] then location.tail
  else String.ofList segment :: location

/-- Where a path starts. -/
def start (fs : FileSystem) (path : String) : Location :=
  if Path.isAbsolute path then [] else fs.directory

/-- The place that a path names by its text. -/
def place (fs : FileSystem) (path : String) : Location :=
  (Path.segments path.toList).foldl stepPlace (fs.start path)

/-- The way of a path, step by step. -/
def way (fs : FileSystem) (path : String) : Except FileFault Location :=
  fs.walk (fs.start path) (Path.segments path.toList)

theorem place_congr {fs fs' : FileSystem} (h : fs'.directory = fs.directory) (path : String) :
    fs'.place path = fs.place path := by
  rw [place, place, start, start, h]

theorem stepPlace_of_step {fs : FileSystem} {location next : Location} {segment : List Char}
    (h : fs.step location segment = .ok next) : next = stepPlace location segment := by
  unfold step at h
  split at h
  · rename_i hempty
    simp [stepPlace, hempty, ← Except.ok.inj h]
  · rename_i hempty
    obtain ⟨_, -, h⟩ := bind_eq_ok.1 h
    split at h
    · rename_i hdot
      simp [stepPlace, hdot, ← Except.ok.inj h]
    · split at h
      · rename_i hdot hdots
        simp [stepPlace, hdots, ← Except.ok.inj h]
      · rename_i hdot hdots
        dsimp only at h
        split at h
        · cases h
        · simp [stepPlace, hempty, hdot, hdots, ← Except.ok.inj h]

theorem place_of_walk {fs : FileSystem} {location found : Location} {segments : List (List Char)}
    (h : fs.walk location segments = .ok found) : found = segments.foldl stepPlace location := by
  induction segments generalizing location with
  | nil => exact (Except.ok.inj h).symm
  | cons segment rest ih =>
      obtain ⟨next, hstep, hrest⟩ := bind_eq_ok.1 h
      rw [List.foldl_cons, ← stepPlace_of_step hstep]
      exact ih hrest

theorem place_of_way {fs : FileSystem} {path : String} {location : Location}
    (h : fs.way path = .ok location) : location = fs.place path :=
  place_of_walk h

theorem way_of_locate {fs : FileSystem} {path : String} {location : Location}
    (h : fs.locate path = .ok location) : fs.way path = .ok location := by
  unfold locate at h
  split at h
  · cases h
  · split at h
    · cases h
    · split at h
      · cases h
      · exact h

theorem place_of_locate {fs : FileSystem} {path : String} {location : Location}
    (h : fs.locate path = .ok location) : location = fs.place path :=
  place_of_way (way_of_locate h)

theorem way_eq_notFound {fs : FileSystem} {path : String} (hpath : path ≠ "")
    (h : fs.locate path = .error .notFound) : fs.way path = .error .notFound := by
  unfold locate at h
  split at h
  · cases h
  · split at h
    · rename_i hempty
      exact absurd (String.isEmpty_iff.1 hempty) hpath
    · split at h
      · cases h
      · exact h

/-! ## Rooted file systems -/

/-- Whatever stands somewhere stands in a directory. -/
def Rooted (fs : FileSystem) : Prop :=
  ∀ item ∈ fs.entries, fs.entry? item.1.tail = some .directory

instance (fs : FileSystem) : Decidable fs.Rooted :=
  inferInstanceAs (Decidable (∀ item ∈ fs.entries, fs.entry? item.1.tail = some .directory))

namespace Rooted

variable {fs : FileSystem}

theorem entry?_tail (h : fs.Rooted) {location : Location} (hentry : fs.entry? location ≠ none) :
    fs.entry? location.tail = some .directory := by
  cases location with
  | nil => exact if_pos rfl
  | cons name location =>
      unfold entry? at hentry
      rw [if_neg (List.cons_ne_nil name location), Ne, Option.map_eq_none_iff] at hentry
      obtain ⟨item, hitem⟩ := Option.ne_none_iff_exists'.1 hentry
      have hname : item.1 = name :: location := by
        simpa using List.find?_some hitem
      rw [← hname]
      exact h item (List.mem_of_find?_eq_some hitem)

theorem entry?_tail_of_step (h : fs.Rooted) {location next : Location} {segment : List Char}
    (hsegment : segment ≠ []) (hstep : fs.step location segment = .ok next) :
    fs.entry? next.tail = some .directory := by
  have hnext := stepPlace_of_step hstep
  unfold step at hstep
  rw [if_neg hsegment] at hstep
  obtain ⟨_, hrequire, -⟩ := bind_eq_ok.1 hstep
  have hhere : fs.entry? location = some .directory := by
    unfold requireDirectory at hrequire
    split at hrequire
    · assumption
    · cases hrequire
    · cases hrequire
  -- With a directory here there is one above, and one above that, whichever way the step leads.
  have habove := h.entry?_tail (by rw [hhere]; exact Option.some_ne_none _)
  rw [hnext, stepPlace]
  split
  · exact habove
  · split
    · exact h.entry?_tail (by rw [habove]; exact Option.some_ne_none _)
    · exact hhere

/-- A way that takes a step, or starts in a directory, ends in one. -/
theorem entry?_tail_of_walk (h : fs.Rooted) {location found : Location}
    {segments : List (List Char)} (hwalk : fs.walk location segments = .ok found)
    (hstart : fs.entry? location.tail = some .directory ∨ segments.filter (· ≠ []) ≠ []) :
    fs.entry? found.tail = some .directory := by
  induction segments generalizing location with
  | nil =>
      obtain rfl := Except.ok.inj hwalk
      exact hstart.resolve_right fun hne => hne rfl
  | cons segment rest ih =>
      obtain ⟨next, hstep, hrest⟩ := bind_eq_ok.1 hwalk
      by_cases hempty : segment = []
      · subst hempty
        obtain rfl := Except.ok.inj hstep
        rw [List.filter_cons_of_neg (by simp)] at hstart
        exact ih hrest hstart
      · exact ih hrest (.inl (h.entry?_tail_of_step hempty hstep))

theorem entry?_tail_of_locate (h : fs.Rooted) {path : String} {location : Location}
    (hlocate : fs.locate path = .ok location) : fs.entry? location.tail = some .directory := by
  refine h.entry?_tail_of_walk (way_of_locate hlocate) ?_
  cases hpath : Path.isAbsolute path with
  | true =>
      refine .inl ?_
      rw [start, hpath]
      exact if_pos rfl
  | false =>
      refine .inr (Path.solid_ne_nil ?_ hpath)
      rintro rfl
      cases hlocate

end Rooted

/-! ## Growth -/

/-- Directories may have been made where nothing stood, and files written at the places that are
touched. -/
structure Grown (touched : Location → Prop) (before after : FileSystem) : Prop where
  directory : after.directory = before.directory
  keeps_directory : ∀ {location : Location},
    before.entry? location = some .directory → after.entry? location = some .directory
  keeps_file : ∀ {location : Location} {content : FileContent},
    before.entry? location = some (.file content) →
      ∃ content', after.entry? location = some (.file content')
  same_file : ∀ {location : Location}, ¬ touched location → ∀ content : FileContent,
    after.entry? location = some (.file content) ↔ before.entry? location = some (.file content)
  rooted : before.Rooted → after.Rooted

namespace Grown

variable {touched : Location → Prop} {before after : FileSystem}

theorem refl (touched : Location → Prop) (fs : FileSystem) : Grown touched fs fs where
  directory := rfl
  keeps_directory := id
  keeps_file := fun h => ⟨_, h⟩
  same_file := fun _ _ => Iff.rfl
  rooted := id

theorem trans {last : FileSystem} (hfirst : Grown touched before after)
    (hsecond : Grown touched after last) : Grown touched before last where
  directory := hsecond.directory.trans hfirst.directory
  keeps_directory := fun h => hsecond.keeps_directory (hfirst.keeps_directory h)
  keeps_file := by
    intro location content h
    obtain ⟨content', h'⟩ := hfirst.keeps_file h
    exact hsecond.keeps_file h'
  same_file := fun hloc content =>
    (hsecond.same_file hloc content).trans (hfirst.same_file hloc content)
  rooted := fun hbefore => hsecond.rooted (hfirst.rooted hbefore)

theorem mono {touched' : Location → Prop} (h : Grown touched before after)
    (himp : ∀ location, touched location → touched' location) : Grown touched' before after where
  directory := h.directory
  keeps_directory := h.keeps_directory
  keeps_file := h.keeps_file
  same_file := fun hloc => h.same_file fun hmem => hloc (himp _ hmem)
  rooted := h.rooted

theorem entry?_ne_none (h : Grown touched before after) {location : Location}
    (hentry : before.entry? location ≠ none) : after.entry? location ≠ none := by
  cases hbefore : before.entry? location with
  | none => exact absurd hbefore hentry
  | some entry =>
      cases entry with
      | directory =>
          rw [h.keeps_directory hbefore]
          exact Option.some_ne_none _
      | file content =>
          obtain ⟨content', hafter⟩ := h.keeps_file hbefore
          rw [hafter]
          exact Option.some_ne_none _

theorem requireDirectory_eq (h : Grown touched before after) {location : Location}
    (hne : before.requireDirectory location ≠ .error .notFound) :
    after.requireDirectory location = before.requireDirectory location := by
  unfold requireDirectory at hne ⊢
  cases hentry : before.entry? location with
  | none => exact absurd (by rw [hentry]) hne
  | some entry =>
      cases entry with
      | directory => rw [h.keeps_directory hentry]
      | file content =>
          obtain ⟨content', hafter⟩ := h.keeps_file hentry
          rw [hafter]

theorem step_eq (h : Grown touched before after) {location : Location} {segment : List Char}
    (hne : before.step location segment ≠ .error .notFound) :
    after.step location segment = before.step location segment := by
  unfold step at hne ⊢
  by_cases hempty : segment = []
  · rw [if_pos hempty, if_pos hempty]
  · rw [if_neg hempty] at hne
    have hdirectory : before.requireDirectory location ≠ .error .notFound := by
      intro hmissing
      rw [hmissing] at hne
      exact hne rfl
    rw [if_neg hempty, if_neg hempty, h.requireDirectory_eq hdirectory]

theorem walk_eq (h : Grown touched before after) {location : Location}
    {segments : List (List Char)} (hne : before.walk location segments ≠ .error .notFound) :
    after.walk location segments = before.walk location segments := by
  induction segments generalizing location with
  | nil => rfl
  | cons segment rest ih =>
      rw [walk] at hne
      rw [walk, walk]
      have hstep : before.step location segment ≠ .error .notFound := by
        intro hmissing
        rw [hmissing] at hne
        exact hne rfl
      rw [h.step_eq hstep]
      cases hnext : before.step location segment with
      | error fault => rfl
      | ok next =>
          rw [hnext] at hne
          exact ih hne

theorem way_eq (h : Grown touched before after) {path : String}
    (hne : before.way path ≠ .error .notFound) : after.way path = before.way path := by
  unfold way start at hne ⊢
  rw [h.directory]
  exact h.walk_eq hne

theorem locate_eq (h : Grown touched before after) {path : String}
    (hne : before.locate path ≠ .error .notFound) : after.locate path = before.locate path := by
  unfold locate at hne ⊢
  split
  · rfl
  · split
    · rfl
    · split
      · rfl
      · rename_i hnul hempty hlimit
        rw [if_neg hnul, if_neg hempty, if_neg hlimit] at hne
        exact h.way_eq hne

end Grown

/-! ## Reading -/

/-- A file stands at the place of the path, but the way there leads through a directory that is
missing, so that the file is not found. -/
def Hidden (fs : FileSystem) (path : String) : Prop :=
  fs.read path = .error .notFound ∧
    ∃ content : FileContent, fs.entry? (fs.place path) = some (.file content)

instance (fs : FileSystem) (path : String) : Decidable (fs.Hidden path) :=
  match hread : fs.read path, hentry : fs.entry? (fs.place path) with
  | .error fault, some (.file content) =>
    if hfault : fault = .notFound then .isTrue ⟨by rw [hread, hfault], content, hentry⟩
    else .isFalse fun h => hfault (Except.error.inj (hread.symm.trans h.1))
  | .ok _, _ => .isFalse fun h => nomatch hread.symm.trans h.1
  | _, some .directory => .isFalse fun ⟨_, _, h⟩ => nomatch hentry.symm.trans h
  | _, none => .isFalse fun ⟨_, _, h⟩ => nomatch hentry.symm.trans h

theorem read_of_locate {fs : FileSystem} {path : String} {location : Location}
    (h : fs.locate path = .ok location) :
    fs.read path =
      match fs.entry? location with
      | none => .error .notFound
      | some .directory => .error .isADirectory
      | some (.file content) =>
        if endsWithSlash path then .error .notADirectory else .ok content := by
  unfold read
  rw [h]
  rfl

theorem read_eq_ok {fs : FileSystem} {path : String} {content : FileContent} :
    fs.read path = .ok content ↔
      fs.locate path = .ok (fs.place path) ∧ endsWithSlash path = false ∧
        fs.entry? (fs.place path) = some (.file content) := by
  constructor
  · intro h
    obtain ⟨location, hlocate, h⟩ := bind_eq_ok.1 h
    obtain rfl := place_of_locate hlocate
    split at h
    · cases h
    · cases h
    · rename_i stored hentry
      split at h
      · cases h
      · rename_i hslash
        rw [hentry, Except.ok.inj h]
        exact ⟨hlocate, Bool.eq_false_iff.2 hslash, rfl⟩
  · rintro ⟨hlocate, hslash, hentry⟩
    rw [read_of_locate hlocate, hentry]
    simp [hslash]

namespace Grown

variable {touched : Location → Prop} {before after : FileSystem}

/-- What a path gave it still gives, if its file was not written. -/
theorem read_eq (h : Grown touched before after) {path : String}
    (huntouched : ¬ touched (before.place path)) (hne : before.read path ≠ .error .notFound) :
    after.read path = before.read path := by
  have hsame : after.locate path = before.locate path := by
    refine h.locate_eq fun hmissing => hne ?_
    unfold read
    rw [hmissing]
    rfl
  cases hfound : before.locate path with
  | error fault =>
      unfold read
      rw [hsame, hfound]
      rfl
  | ok location =>
      rw [← place_of_locate hfound] at huntouched
      rw [read_of_locate hfound] at hne ⊢
      rw [read_of_locate (hsame.trans hfound)]
      cases hentry : before.entry? location with
      | none =>
          rw [hentry] at hne
          exact absurd rfl hne
      | some entry =>
          cases entry with
          | directory => rw [h.keeps_directory hentry]
          | file content => rw [(h.same_file huntouched content).2 hentry]

/-- Only a hidden file can come to light without being written. -/
theorem hidden (h : Grown touched before after) {path : String}
    (huntouched : ¬ touched (before.place path)) (hmissing : before.read path = .error .notFound)
    {content : FileContent} (hread : after.read path = .ok content) : before.Hidden path := by
  obtain ⟨-, -, hentry⟩ := read_eq_ok.1 hread
  rw [place_congr h.directory] at hentry
  exact ⟨hmissing, content, (h.same_file huntouched content).1 hentry⟩

end Grown

/-! ## Operations that make a file system grow -/

theorem ne_nil_of_not_directory {fs : FileSystem} {location : Location}
    (h : fs.entry? location ≠ some .directory) : location ≠ [] := by
  rintro rfl
  exact h (if_pos rfl)

theorem entry?_put (fs : FileSystem) {location : Location} (hlocation : location ≠ [])
    (entry : FileEntry) (other : Location) :
    entry? (fs.put location entry) other =
      if other = location then some entry else fs.entry? other := by
  by_cases hother : other = location
  · subst hother
    simp [put, entry?, hlocation]
  · -- The entries that are dropped are those of the location, which the search passes over.
    have hfind : ∀ items : List (Location × FileEntry),
        (items.filter fun item => item.1 != location).find? (fun item => item.1 == other) =
          items.find? fun item => item.1 == other := by
      intro items
      rw [List.find?_filter]
      refine congrArg (fun test => items.find? test) (funext fun item => ?_)
      by_cases hitem : item.1 = other
      · simp [hitem, hother]
      · simp [hitem]
    simp [put, entry?, hother, Ne.symm hother, hfind]

theorem rooted_put {fs : FileSystem} {location : Location} {entry : FileEntry} (h : fs.Rooted)
    (hparent : fs.entry? location.tail = some .directory)
    (hkeeps : ∀ {other : Location}, fs.entry? other = some .directory →
      entry? (fs.put location entry) other = some .directory) :
    (fs.put location entry).Rooted := by
  intro item hitem
  rcases List.mem_cons.1 hitem with rfl | hitem
  · exact hkeeps hparent
  · exact hkeeps (h item (List.mem_filter.1 hitem).1)

theorem grown_put_directory {fs : FileSystem} {path : String} {location : Location}
    (hlocate : fs.locate path = .ok location) (h : fs.entry? location = none) :
    Grown (fun _ => False) fs (fs.put location .directory) := by
  have hlocation : location ≠ [] := ne_nil_of_not_directory (by rw [h]; simp)
  have hput := entry?_put fs hlocation .directory
  have hkeeps : ∀ {other : Location}, fs.entry? other = some .directory →
      entry? (fs.put location .directory) other = some .directory := by
    intro other hother
    rw [hput, hother, ite_self]
  refine ⟨rfl, hkeeps, ?_, ?_, fun hfs => rooted_put hfs (hfs.entry?_tail_of_locate hlocate) hkeeps⟩
  · intro other content hother
    have hne : other ≠ location := by
      rintro rfl
      rw [h] at hother
      cases hother
    rw [hput, if_neg hne]
    exact ⟨content, hother⟩
  · intro other _ content
    by_cases hother : other = location
    · rw [hput, if_pos hother, hother, h]
      simp
    · rw [hput, if_neg hother]

theorem grown_put_file {fs : FileSystem} {path : String} {location : Location}
    (content : FileContent) (hlocate : fs.locate path = .ok location)
    (h : fs.entry? location ≠ some .directory) :
    Grown (· = location) fs (fs.put location (.file content)) := by
  have hput := entry?_put fs (ne_nil_of_not_directory h) (.file content)
  have hkeeps : ∀ {other : Location}, fs.entry? other = some .directory →
      entry? (fs.put location (.file content)) other = some .directory := by
    intro other hother
    have hne : other ≠ location := by
      rintro rfl
      exact h hother
    rw [hput, if_neg hne, hother]
  refine ⟨rfl, hkeeps, ?_, ?_, fun hfs => rooted_put hfs (hfs.entry?_tail_of_locate hlocate) hkeeps⟩
  · intro other content' hother
    by_cases hloc : other = location
    · exact ⟨content, by rw [hput, if_pos hloc]⟩
    · exact ⟨content', by rw [hput, if_neg hloc, hother]⟩
  · intro other hother content'
    rw [hput, if_neg hother]

theorem grown_makeDirectory {fs fs' : FileSystem} {path : String}
    (h : fs.makeDirectory path = .ok fs') : Grown (fun _ => False) fs fs' := by
  obtain ⟨location, hlocate, h⟩ := bind_eq_ok.1 h
  split at h
  · cases h
  · rename_i hentry
    obtain rfl := Except.ok.inj h
    exact grown_put_directory hlocate hentry

theorem grown_ensureDirectory (fs : FileSystem) (path : String) :
    Grown (fun _ => False) fs (fs.ensureDirectory path).2 := by
  unfold ensureDirectory
  split
  · rename_i made hmade
    exact grown_makeDirectory hmade
  · split
    · exact .refl _ fs
    · exact .refl _ fs

theorem grown_ensureWithin (count : Nat) (fs : FileSystem) (path : String) :
    Grown (fun _ => False) fs (ensureWithin count fs path).2 := by
  induction count generalizing fs path with
  | zero => exact .refl _ fs
  | succ count ih =>
      unfold ensureWithin
      split
      · exact .refl _ fs
      · split
        · rename_i made hmade
          exact grown_makeDirectory hmade
        · split
          · exact .refl _ fs
          · rename_i parent _
            have hparent := ih fs parent
            split
            · rename_i above habove
              rw [habove] at hparent
              exact hparent.trans (grown_ensureDirectory above path)
            · exact hparent
        · split
          · exact .refl _ fs
          · exact .refl _ fs

/-- The content has been put at the place of the path, where no directory stood. -/
def Written (path : String) (content : FileContent) (before after : FileSystem) : Prop :=
  before.locate path = .ok (before.place path) ∧ endsWithSlash path = false ∧
    before.entry? (before.place path) ≠ some .directory ∧
      after = before.put (before.place path) (.file content)

theorem written_overwrite {fs fs' : FileSystem} {path : String} {content : FileContent}
    (h : fs.overwrite path content = .ok fs') : Written path content fs fs' := by
  obtain ⟨location, hlocate, h⟩ := bind_eq_ok.1 h
  obtain rfl := place_of_locate hlocate
  split at h
  · cases h
  · rename_i hslash
    split at h
    · cases h
    · rename_i hentry
      exact ⟨hlocate, Bool.eq_false_iff.2 hslash, hentry, (Except.ok.inj h).symm⟩

theorem written_replace {fs fs' : FileSystem} {path : String} {content : FileContent}
    (h : fs.replace path content = .ok fs') : Written path content fs fs' := by
  obtain ⟨location, hlocate, h⟩ := bind_eq_ok.1 h
  obtain rfl := place_of_locate hlocate
  split at h
  · cases h
  · split at h
    · cases h
    · rename_i hslash
      split at h
      · cases h
      · rename_i hentry
        exact ⟨hlocate, Bool.eq_false_iff.2 hslash, hentry, (Except.ok.inj h).symm⟩

theorem Written.grown {path : String} {content : FileContent} {before after : FileSystem}
    (h : Written path content before after) : Grown (· = before.place path) before after := by
  obtain ⟨hlocate, -, hentry, rfl⟩ := h
  exact grown_put_file content hlocate hentry

/-- What has been written is read.  The way to the file leads through directories only, and so it
does not pass the place that was written. -/
theorem Written.read_eq {path : String} {content : FileContent} {before after : FileSystem}
    (h : Written path content before after) : after.read path = .ok content := by
  have hgrown := h.grown
  obtain ⟨hlocate, hslash, hentry, hafter⟩ := h
  refine read_eq_ok.2 ⟨?_, hslash, ?_⟩
  · rw [place_congr hgrown.directory, ← hlocate]
    refine hgrown.locate_eq ?_
    rw [hlocate]
    exact fun habsurd => by cases habsurd
  · rw [place_congr hgrown.directory, hafter, entry?_put before (ne_nil_of_not_directory hentry),
      if_pos rfl]

end FileSystem

end ClientLoom
