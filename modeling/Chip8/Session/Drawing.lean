import Chip8.Session

/-!
# Drawing

The picture is uploaded only when the screen is stale; the image that the host holds is
shown in any case, and the statistics over it if they are wanted.
-/

namespace Chip8.Session

/-- The picture and, if the screen is stale, its upload. -/
def refresh (s : Session) : Result :=
  let machine := s.console.machine
  if machine.screen.stale then
    match pictureOf s.host machine s.settings.scale with
    | .error e     => .fail s (.screen e)
    | .ok picture =>
        let console := { s.console with
          machine := { machine with screen := { machine.screen with stale := false } } }
        ⟨{ s with console, picture },
          [.call (.upload (s.settings.windowWidth * 4) picture)], none⟩
  else .done s

/-- Draw the window. -/
def draw (s : Session) : Result :=
  Outcome.after [.call .wipe] <|
    s.refresh.andThen fun s =>
      let labels : List Report :=
        if s.settings.showStats then
          [.call (.drawLabel s.frameLabel.text), .call (.drawLabel s.speedLabel.text)]
        else []
      ⟨{ s with drawn := s.drawn + 1 }, .call .blit :: labels, none⟩

end Chip8.Session
