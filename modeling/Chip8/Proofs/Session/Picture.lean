import Chip8.Proofs.Console.Run
import Chip8.Proofs.Machine.Mark
import Chip8.Proofs.Machine.Painting
import Chip8.Proofs.Screen.Images
import Chip8.Proofs.Session.Events

/-! # The picture is never stale

    The image of a window is a copy of what the screen shows, made by a drawing and used until
    the screen is stale again.  The copy is good because of two things that hold one step at a
    time: whatever is not a drawing leaves the copy alone and paints the screen, which does
    not go unnoticed (**`leaves_act`**), and a drawing renews the copy of a stale screen
    before it unmarks it (**`draw_eq`**).  **`Coherent`** is what they keep, over anything that
    happens to a session.

    The host is known by the calls made to it: its image holds the picture that it was given
    last (**`held`**). -/

namespace Chip8

/-! ## The image of the host -/

namespace HostCall

/-- The picture that a call gives to the image of the host. -/
def picture? : HostCall → Option Image
  | .image _ _ picture => some picture
  | .upload _ picture  => some picture
  | _                  => none

/-- Whether a call gives the image a picture, or shows it. -/
def concernsImage : HostCall → Bool
  | .image .. | .upload .. | .blit => true
  | _                              => false

/-- A call that gives the image a picture gives it one that fills the window, four bytes to a
    pixel, and says how many bytes there are to a row of it. -/
def Fits (settings : Settings) : HostCall → Prop
  | .image width height picture =>
      width = settings.windowWidth ∧ height = settings.windowHeight ∧
      (picture.bytes.length : Int) = settings.windowWidth * settings.windowHeight * 4
  | .upload pitch picture =>
      pitch = settings.windowWidth * 4 ∧
      (picture.bytes.length : Int) = settings.windowWidth * settings.windowHeight * 4 ∧
      ∀ row ∈ picture.rows, ((row.flatMap Pixel.bytes).length : Int) = pitch
  | _ => True

theorem picture?_of_not_concerns {call : HostCall} (h : call.concernsImage = false) :
    call.picture? = none := by
  cases call <;> first | rfl | exact nomatch h

theorem fits_of_not_concerns {call : HostCall} (h : call.concernsImage = false)
    (settings : Settings) : call.Fits settings := by
  cases call <;> trivial

end HostCall

namespace Session

/-- The picture that the host's image holds after calls: the last that they gave it. -/
def held (calls : List HostCall) : Option Image := (calls.filterMap HostCall.picture?).getLast?

theorem held_append (calls : List HostCall) {more : List HostCall}
    (h : ∀ call ∈ more, call.picture? = none) : held (calls ++ more) = held calls := by
  rw [held, List.filterMap_append, List.filterMap_eq_nil_iff.2 h, List.append_nil]
  rfl

theorem held_append_upload (calls : List HostCall) (pitch : Int) (picture : Image) :
    held (calls ++ [.upload pitch picture]) = some picture := by
  have hlast : [HostCall.upload pitch picture].filterMap HostCall.picture? = [picture] := rfl
  rw [held, List.filterMap_append, hlast, List.getLast?_concat]

end Session

/-! ## What happens to a session -/

/-- The console with another screen in its machine. -/
def Console.withScreen (c : Console) (screen : Screen) : Console :=
  { c with machine := { c.machine with screen } }

namespace Session

/-- Something that happens to a session: an event; a call of the screen; or anything that
    becomes of the console, its screen apart, and leaves its machine well-formed, such as a
    program that is loaded or a refusal of the audio device. -/
inductive Act where
  | event (e : HostEvent)
  | screen (call : Screen.Call)
  | console (c : Console) (h : c.machine.WellFormed)

def act (s : Session) : Act → Result
  | .event e     => s.handle e
  | .screen call =>
      .done { s with console := s.console.withScreen (s.console.machine.screen.performed call) }
  | .console c _ => .done { s with console := c.withScreen s.console.machine.screen }

def acted (s : Session) : List Act → Session
  | []      => s
  | a :: as => (s.act a).state.acted as

def actReports (s : Session) : List Act → List Report
  | []      => []
  | a :: as => (s.act a).reports ++ (s.act a).state.actReports as

variable {s : Session} {o : Result}

/-! ## What is no drawing -/

/-- The image of the host is left alone, and the screen at most painted. -/
structure Leaves (s : Session) (o : Result) : Prop where
  wellFormed : o.state.console.machine.WellFormed
  settings : o.state.settings = s.settings
  host : o.state.host = s.host
  picture : o.state.picture = s.picture
  painted : s.console.machine.screen.Painted o.state.console.machine.screen
  unconcerned : ∀ call ∈ hostCalls o.reports, call.concernsImage = false

theorem leaves_done (h : s.console.machine.WellFormed) : Leaves s (.done s) where
  wellFormed := h
  settings := rfl
  host := rfl
  picture := rfl
  painted := .refl _
  unconcerned := fun _ hcall => nomatch hcall

theorem Leaves.after (h : Leaves s o) {first : List Report}
    (hfirst : ∀ call ∈ hostCalls first, call.concernsImage = false) :
    Leaves s (o.after first) where
  wellFormed := h.wellFormed
  settings := h.settings
  host := h.host
  picture := h.picture
  painted := h.painted
  unconcerned := by
    intro call hcall
    have hmem : call ∈ hostCalls (first ++ o.reports) := hcall
    rw [hostCalls_append] at hmem
    rcases List.mem_append.1 hmem with hleft | hright
    · exact hfirst call hleft
    · exact h.unconcerned call hright

theorem Leaves.next (h : Leaves s o) {o' : Result} (h' : Leaves o.state o') :
    Leaves s (o'.after o.reports) := by
  have hrest : Leaves s o' :=
    { wellFormed := h'.wellFormed
      settings := h'.settings.trans h.settings
      host := h'.host.trans h.host
      picture := h'.picture.trans h.picture
      painted := h.painted.trans h'.painted
      unconcerned := h'.unconcerned }
  exact hrest.after h.unconcerned

/-- A console tells the host of nothing but its audio device. -/
theorem unconcerned_reportOf (level : Log.Level) (reports : List Console.Report) :
    ∀ call ∈ hostCalls (reports.flatMap (reportOf level)), call.concernsImage = false := by
  intro call hcall
  obtain ⟨r, hr, hcalls⟩ := List.mem_filterMap.1 hcall
  obtain ⟨r', _, hmem⟩ := List.mem_flatMap.1 hr
  cases r' with
  | entry e =>
      rw [reportOf, seen] at hmem
      split at hmem
      · rw [List.mem_singleton.1 hmem] at hcalls
        cases hcalls
      · cases hmem
  | call c =>
      rw [List.mem_singleton.1 hmem] at hcalls
      rw [← Option.some.inj hcalls]
      rfl
  | command c => cases hmem
  | observed name e => cases hmem

theorem leaves_onConsole {f : Console → Console.Result}
    (hf : (f s.console).state.machine.WellFormed)
    (hpainted : s.console.machine.screen.Painted (f s.console).state.machine.screen) :
    Leaves s (s.onConsole f) where
  wellFormed := hf
  settings := rfl
  host := rfl
  picture := rfl
  painted := hpainted
  unconcerned := unconcerned_reportOf s.level (f s.console).reports

theorem leaves_close (h : s.console.machine.WellFormed) : Leaves s s.close := by
  have hsilent : Leaves s ({ s with scheduled := [] }.onConsole Console.silence) :=
    { leaves_onConsole (s := { s with scheduled := [] }) (f := Console.silence) h (.refl _) with }
  have hclosed : Leaves ({ s with scheduled := [] }.onConsole Console.silence).state
      ⟨{ ({ s with scheduled := [] }.onConsole Console.silence).state with closed := true },
        [.call .closed], none⟩ :=
    { leaves_done hsilent.wellFormed with
      unconcerned := by
        intro call hcall
        rw [List.mem_singleton.1 hcall]
        rfl }
  refine (hsilent.next hclosed).after ?_
  intro call hcall
  rcases List.mem_pair.1 hcall with rfl | rfl <;> rfl

theorem leaves_frame (h : s.console.machine.WellFormed) : Leaves s s.frame := by
  have hcycle : Leaves s (s.onConsole Console.cycle) :=
    leaves_onConsole (Machine.wellFormed_cycle h) (Machine.painted_cycle h)
  rcases s.frame_cases with ⟨_, hframe⟩ | ⟨_, c, _, hframe⟩ | ⟨_, _, hframe⟩
  · rw [hframe]
    exact leaves_done h
  · rw [hframe]
    refine hcycle.next ((leaves_close hcycle.wellFormed).after ?_)
    rw [hostCalls_seen]
    exact fun _ hcall => nomatch hcall
  · rw [hframe]
    exact hcycle

theorem screen_afterKeys (c : Console) (es : List KeyEvent) :
    (c.afterKeys es).machine.screen = c.machine.screen := by
  rw [Console.afterKeys_eq]

theorem leaves_keys (h : s.console.machine.WellFormed) (call : Console.KeyCall) :
    Leaves s (s.onConsole (·.performKeys call)) := by
  have hstate := Console.performKeys_state h call
  refine leaves_onConsole ?_ ?_
  · rw [hstate]
    exact Console.wellFormed_afterKeys h _
  · rw [hstate, screen_afterKeys]
    exact .refl _

theorem lifts_leaves : Lifts (fun s => s.console.machine.WellFormed) Leaves where
  kept := fun _ hleaves => hleaves.wellFormed
  still := leaves_done
  next := fun hleaves hrest => hleaves.next hrest
  frame := leaves_frame
  measure := by
    intro s h
    rw [measure]
    split
    · exact leaves_done h
    · exact { leaves_done h with }
  clock := fun _ h => { leaves_done h with }
  trace := by
    intro s h
    refine { leaves_done h with unconcerned := ?_ }
    intro call hcall
    have hmem : call ∈ hostCalls (seen _ _) := hcall
    rw [hostCalls_seen] at hmem
    exact nomatch hmem
  keys := fun call h => leaves_keys h call
  close := leaves_close

/-- **WHATEVER IS NO DRAWING LEAVES THE IMAGE ALONE.** -/
theorem leaves_act (h : s.console.machine.WellFormed) {a : Act} (ha : a ≠ .event .draw) :
    Leaves s (s.act a) := by
  cases a with
  | event e => exact lifts_leaves.handle h fun hdraw => absurd (congrArg Act.event hdraw) ha
  | screen call =>
      have hscreen := h.screen_standard.performed call
      exact { leaves_done h with
        wellFormed := h.withScreen hscreen
        painted := Screen.painted_performed _ call }
  | console c hc => exact { leaves_done h with wellFormed := hc.withScreen h.screen_standard }

/-! ## Drawing -/

/-- The reports of showing the statistics. -/
def statisticsShown (s : Session) : List Report :=
  if s.settings.showStats then
    [.call (.drawLabel s.frameLabel.text), .call (.drawLabel s.speedLabel.text)]
  else []

theorem unconcerned_statisticsShown (s : Session) :
    ∀ call ∈ hostCalls s.statisticsShown, call.concernsImage = false := by
  intro call hcall
  rw [statisticsShown] at hcall
  split at hcall
  · rcases List.mem_pair.1 hcall with rfl | rfl <;> rfl
  · exact nomatch hcall

/-- What a session keeps of its picture, and the host has been told of it: the picture that it
    holds is the host's, and the screen's unless the screen is stale. -/
structure Coherent (s : Session) (told : List HostCall) : Prop where
  wellFormed : s.console.machine.WellFormed
  room : s.console.machine.screen.roomFor s.host s.settings.scale = .ok ()
  held_eq : held told = some s.picture
  fresh : s.console.machine.screen.stale = false →
    pictureOf s.host s.console.machine s.settings.scale = .ok s.picture
  fits : ∀ call ∈ told, call.Fits s.settings

variable {told : List HostCall}

/-- **A DRAWING SUCCEEDS**: it wipes the window, uploads the picture of the screen unless the
    image holds it, and shows the image, and the screen is unmarked. -/
theorem draw_eq (h : Coherent s told) :
    ∃ image uploads, pictureOf s.host s.console.machine s.settings.scale = .ok image ∧
      (uploads = [] ∧ image = s.picture ∨
        uploads = [.upload (s.settings.windowWidth * 4) image]) ∧
      s.draw = ⟨{ s with
          console := s.console.withScreen s.console.machine.screen.unmarked
          picture := image
          drawn := s.drawn + 1 },
        .call .wipe :: (uploads.map .call ++ .call .blit :: s.statisticsShown), none⟩ := by
  cases hstale : s.console.machine.screen.stale with
  | false =>
      have hscreen : s.console.machine.screen.unmarked = s.console.machine.screen := by
        rw [Screen.unmarked, ← hstale]
      refine ⟨s.picture, [], h.fresh hstale, Or.inl ⟨rfl, rfl⟩, ?_⟩
      rw [hscreen, draw, refresh, hstale]
      rfl
  | true =>
      obtain ⟨image, himage⟩ := Screen.exists_image h.room true .white
      have hpicture : pictureOf s.host s.console.machine s.settings.scale = .ok image := himage
      refine ⟨image, [.upload (s.settings.windowWidth * 4) image], hpicture, Or.inr rfl, ?_⟩
      rw [draw, refresh, hstale, if_pos rfl, hpicture]
      rfl

theorem hostCalls_map_call (calls : List HostCall) : hostCalls (calls.map .call) = calls := by
  induction calls with
  | nil => rfl
  | cons c rest ih => exact congrArg (c :: ·) ih

theorem fits_of_picture {host : HostMemory} {m : Machine} {settings : Settings} {image : Image}
    (h : m.WellFormed) (himage : pictureOf host m settings.scale = .ok image) :
    (image.bytes.length : Int) = settings.windowWidth * settings.windowHeight * 4 ∧
    ∀ row ∈ image.rows, ((row.flatMap Pixel.bytes).length : Int) = settings.windowWidth * 4 := by
  have hsized := h.screen_standard.sized_image himage
  rw [h.screen_standard.columns_eq, h.screen_standard.rows_eq] at hsized
  exact ⟨hsized.length_bytes, fun row hrow => hsized.length_row_bytes hrow⟩

theorem Coherent.leaves (h : Coherent s told) (hleaves : Leaves s o) :
    Coherent o.state (told ++ hostCalls o.reports) where
  wellFormed := hleaves.wellFormed
  room := by
    rw [hleaves.settings, hleaves.host, Screen.roomFor_of_standard h.wellFormed.screen_standard
      hleaves.wellFormed.screen_standard]
    exact h.room
  held_eq := by
    rw [hleaves.picture, held_append told fun call hcall =>
      HostCall.picture?_of_not_concerns (hleaves.unconcerned call hcall)]
    exact h.held_eq
  fresh := by
    intro hstale
    rw [hleaves.settings, hleaves.host, hleaves.picture]
    -- a painted screen that is not stale is the screen as it was
    rcases hleaves.painted.eq_or_stale with hsame | hmarked
    · rw [hsame] at hstale
      rw [pictureOf, hsame]
      exact h.fresh hstale
    · exact nomatch hstale.symm.trans hmarked
  fits := by
    intro call hcall
    rw [hleaves.settings]
    rcases List.mem_append.1 hcall with hold | hnew
    · exact h.fits call hold
    · exact HostCall.fits_of_not_concerns (hleaves.unconcerned call hnew) _

/-- A drawing shows the image once, and then it holds the picture `image`. -/
structure Shows (s : Session) (told : List HostCall) (image : Image) : Prop where
  failure : s.draw.failure = none
  shown : ∃ before after, hostCalls s.draw.reports = before ++ .blit :: after ∧
    held (told ++ before) = some image ∧ .blit ∉ before ∧
    ∀ call ∈ after, call.concernsImage = false

/-- **A DRAWING SHOWS THE SCREEN**, whether or not it uploads a picture, and changes nothing
    but the mark. -/
theorem Coherent.draw (h : Coherent s told) :
    (∃ image, pictureOf s.host s.console.machine s.settings.scale = .ok image ∧
      Shows s told image) ∧
    s.draw.state.console.machine.screen = s.console.machine.screen.unmarked ∧
    Coherent s.draw.state (told ++ hostCalls s.draw.reports) := by
  obtain ⟨image, uploads, himage, huploads, hdraw⟩ := draw_eq h
  have hcalls : hostCalls s.draw.reports
      = (.wipe :: uploads) ++ .blit :: hostCalls s.statisticsShown := by
    rw [hdraw]
    show HostCall.wipe :: hostCalls (uploads.map .call ++ .call .blit :: s.statisticsShown) = _
    rw [hostCalls_append, hostCalls_map_call]
    rfl
  have hheld : held (told ++ (.wipe :: uploads)) = some image := by
    have hwipe : held (told ++ [.wipe]) = held told :=
      held_append told fun call hcall => by rw [List.mem_singleton.1 hcall]; rfl
    rw [show HostCall.wipe :: uploads = [.wipe] ++ uploads from rfl, ← List.append_assoc]
    rcases huploads with ⟨hnone, hsame⟩ | hupload
    · rw [hnone, List.append_nil, hwipe, hsame]
      exact h.held_eq
    · rw [hupload]
      exact held_append_upload ..
  have hblit : HostCall.blit ∉ HostCall.wipe :: uploads := by
    intro hmem
    rcases huploads with ⟨hnone, _⟩ | hupload
    · rw [hnone] at hmem
      exact nomatch List.mem_singleton.1 hmem
    · rw [hupload] at hmem
      rcases List.mem_pair.1 hmem with heq | heq <;> exact nomatch heq
  have hstatistics := unconcerned_statisticsShown s
  have hafter : ∀ call ∈ .blit :: hostCalls s.statisticsShown, call.picture? = none :=
    List.forall_mem_cons.2 ⟨rfl, fun call hcall =>
      HostCall.picture?_of_not_concerns (hstatistics call hcall)⟩
  have hfits : ∀ call ∈ uploads, call.Fits s.settings := by
    rcases huploads with ⟨hnone, _⟩ | hupload
    · rw [hnone]
      exact fun _ hcall => nomatch hcall
    · rw [hupload]
      obtain ⟨hbytes, hrows⟩ := fits_of_picture h.wellFormed himage
      exact List.forall_mem_singleton.2 ⟨rfl, hbytes, hrows⟩
  refine ⟨⟨image, himage, ?_, _, _, hcalls, hheld, hblit, hstatistics⟩, ?_, ?_⟩
  · rw [hdraw]
  · rw [hdraw]
    rfl
  · have hscreen : s.console.machine.screen.unmarked.Standard :=
      { h.wellFormed.screen_standard with }
    rw [hcalls, hdraw]
    exact {
      wellFormed := h.wellFormed.withScreen hscreen
      room := h.room
      held_eq := by
        rw [← List.append_assoc, held_append _ hafter]
        exact hheld
      fresh := fun _ => himage
      fits := by
        intro call hcall
        rcases List.mem_append.1 hcall with hold | hnew
        · exact h.fits call hold
        rcases List.mem_append.1 hnew with hbefore | hshown
        · rcases List.mem_cons.1 hbefore with rfl | hupload
          · trivial
          · exact hfits call hupload
        · rcases List.mem_cons.1 hshown with rfl | hlabel
          · trivial
          · exact HostCall.fits_of_not_concerns (hstatistics call hlabel) _ }

/-! ## Sessions from their beginning -/

/-- A session can be created where its picture has room and its frames have an interval. -/
theorem exists_create {host : HostMemory} (console : Console) {settings : Settings}
    (hroom : console.machine.screen.roomFor host settings.scale = .ok ())
    (hinterval : settings.interval.isOk = true) (level : Log.Level) (clock : Extended) :
    ∃ s opening, create host console settings level clock = .ok (s, opening) := by
  obtain ⟨image, himage⟩ := Screen.exists_image hroom true .white
  have hpicture : pictureOf host console.machine settings.scale = .ok image := himage
  cases hseconds : settings.interval with
  | error e =>
      rw [hseconds] at hinterval
      exact nomatch hinterval
  | ok interval =>
      rw [create, hpicture, hseconds]
      exact ⟨_, _, rfl⟩

/-- **WHAT IS CREATED**: an open session on the console, whose picture the host has. -/
theorem of_create {host : HostMemory} {console : Console} {settings : Settings}
    {level : Log.Level} {clock : Extended} {opening : List HostCall}
    (hcreate : create host console settings level clock = .ok (s, opening)) :
    s.console = console ∧ s.settings = settings ∧ s.host = host ∧ s.closed = false ∧
    pictureOf host console.machine settings.scale = .ok s.picture ∧
    ∃ interval, settings.interval = .ok interval ∧ opening =
      [ .window settings.windowWidth settings.windowHeight settings.vsync,
        .image settings.windowWidth settings.windowHeight s.picture,
        .label s.frameLabel, .label s.speedLabel,
        .schedule .frame interval, .schedule .statistics (.real (.finite 1)) ] := by
  obtain ⟨image, hpicture, hcreate⟩ := exists_of_mapError_bind hcreate
  obtain ⟨interval, hinterval, hcreate⟩ := exists_of_mapError_bind hcreate
  cases hcreate
  exact ⟨rfl, rfl, rfl, rfl, hpicture, interval, hinterval, rfl⟩

theorem coherent_create {host : HostMemory} {console : Console} {settings : Settings}
    {level : Log.Level} {clock : Extended} {opening : List HostCall}
    (h : console.machine.WellFormed)
    (hcreate : create host console settings level clock = .ok (s, opening)) :
    Coherent s opening ∧ s.settings = settings ∧ s.host = host := by
  obtain ⟨rfl, rfl, rfl, _, hpicture, interval, _, rfl⟩ := of_create hcreate
  obtain ⟨hbytes, _⟩ := fits_of_picture h hpicture
  refine ⟨⟨h, (Screen.image_eq_ok_iff.1 hpicture).1, rfl, fun _ => hpicture, ?_⟩, rfl, rfl⟩
  simp only [List.forall_mem_cons]
  exact ⟨trivial, ⟨rfl, rfl, hbytes⟩, trivial, trivial, trivial, trivial,
    fun _ hcall => nomatch hcall⟩

theorem coherent_act (h : Coherent s told) (a : Act) :
    Coherent (s.act a).state (told ++ hostCalls (s.act a).reports) ∧
      (s.act a).state.settings = s.settings ∧ (s.act a).state.host = s.host := by
  by_cases ha : a = .event .draw
  · subst ha
    obtain ⟨_, _, hcoherent⟩ := h.draw
    obtain ⟨image, uploads, _, _, hdraw⟩ := draw_eq h
    exact ⟨hcoherent, congrArg (fun o : Result => o.state.settings) hdraw,
      congrArg (fun o : Result => o.state.host) hdraw⟩
  · have hleaves := leaves_act h.wellFormed ha
    exact ⟨h.leaves hleaves, hleaves.settings, hleaves.host⟩

theorem coherent_acted (h : Coherent s told) (acts : List Act) :
    Coherent (s.acted acts) (told ++ hostCalls (s.actReports acts)) ∧
      (s.acted acts).settings = s.settings ∧ (s.acted acts).host = s.host := by
  induction acts generalizing s told with
  | nil =>
      have hnone : told ++ hostCalls (s.actReports []) = told := List.append_nil told
      rw [hnone]
      exact ⟨h, rfl, rfl⟩
  | cons a rest ih =>
      obtain ⟨hfirst, hsettings, hhost⟩ := coherent_act h a
      obtain ⟨hrest, hsettings', hhost'⟩ := ih hfirst
      rw [actReports, hostCalls_append, ← List.append_assoc]
      exact ⟨hrest, hsettings'.trans hsettings, hhost'.trans hhost⟩

/-- **THE PICTURE IS NEVER STALE.**  Of a session that was created on a console whose machine is
    well-formed, with whatever memory its host has, after anything that has happened to it:

    * if the screen is not stale, the host's image holds its picture;
    * a drawing, now, does not fail and shows the image once, when that holds the picture of
      the screen; and it changes nothing of the screen but the mark;
    * every picture that the host was given fills the window, four bytes to a pixel, and an
      upload says how many bytes there are to each row of it. -/
theorem picture_is_never_stale {host : HostMemory} {console : Console} {settings : Settings}
    {level : Log.Level} {clock : Extended} {opening : List HostCall}
    (h : console.machine.WellFormed)
    (hcreate : create host console settings level clock = .ok (s, opening)) (acts : List Act) :
    let d := s.acted acts
    let told := opening ++ hostCalls (s.actReports acts)
    (d.console.machine.screen.stale = false →
      ∃ image, pictureOf host d.console.machine settings.scale = .ok image ∧
        held told = some image) ∧
    ((∃ image, pictureOf host d.console.machine settings.scale = .ok image ∧
      Shows d told image) ∧
      d.draw.state.console.machine.screen = d.console.machine.screen.unmarked) ∧
    ∀ call ∈ told ++ hostCalls d.draw.reports, call.Fits settings := by
  intro d told
  obtain ⟨hcreated, hsettings, hhost⟩ := coherent_create h hcreate
  obtain ⟨hd, hsettings', hhost'⟩ := coherent_acted hcreated acts
  have hd : Coherent d told := hd
  have hsettings' : d.settings = settings := hsettings'.trans hsettings
  have hhost' : d.host = host := hhost'.trans hhost
  clear_value d told
  subst hsettings' hhost'
  obtain ⟨hshows, hscreen, hdrawn⟩ := hd.draw
  obtain ⟨_, hsame, _⟩ := coherent_act hd (.event .draw)
  refine ⟨fun hstale => ⟨d.picture, hd.fresh hstale, hd.held_eq⟩, ⟨hshows, hscreen⟩, ?_⟩
  intro call hcall
  rw [← show d.draw.state.settings = d.settings from hsame]
  exact hdrawn.fits call hcall

/-- After a pixel has been toggled and the window drawn, the host holds the picture. -/
theorem picture_after_a_drawing :
    let console := Console.fresh 10 440 (.cycling [])
    let settings := { Settings.standard with scale := 1 }
    let acts := [Act.screen (.toggle 5 70), .event .draw]
    console.machine.WellFormed ∧
    ∃ s opening, create .boundless console settings .info (.finite 0) = .ok (s, opening) ∧
      (s.acted acts).console.machine.screen.stale = false ∧
      ∃ image, pictureOf .boundless (s.acted acts).console.machine 1 = .ok image ∧
        held (opening ++ hostCalls (s.actReports acts)) = some image := by
  intro console settings acts
  have h : console.machine.WellFormed := Machine.wellFormed_fresh 10 440 (.cycling [])
  have hinterval : settings.interval.isOk = true := by decide +kernel
  have hroom : console.machine.screen.roomFor .boundless settings.scale = .ok () := rfl
  obtain ⟨s, opening, hs⟩ := exists_create console hroom hinterval .info (.finite 0)
  have hscreen := (picture_is_never_stale h hs [.screen (.toggle 5 70)]).2.1.2
  have hstale : (s.acted acts).console.machine.screen.stale = false :=
    congrArg Screen.stale hscreen
  exact ⟨h, s, opening, hs, hstale, (picture_is_never_stale h hs acts).1 hstale⟩

end Session

end Chip8
