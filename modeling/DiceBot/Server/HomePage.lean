import DiceBot.Settings.Basic
import DiceBot.Web.Html

/-!
The home page: what the bot does and where to install it.
-/

namespace DiceBot.Server

def botVersion : String := "0.2.0"

open Web.Html (escape)

/-- The style of the page, a selector and its declarations a line. -/
def pageStyle : List (String × String) :=
  [("body", "font-family: -apple-system, \"Segoe UI\", Helvetica, Arial, sans-serif; margin: 0; " ++
      "background: #f7f5f2; color: #2c2d30;"),
   ("main", "max-width: 720px; margin: 0 auto; padding: 48px 24px;"),
   ("h1", "font-size: 2.4rem; margin-bottom: 0.2rem;"),
   (".version", "color: #717274; margin-top: 0;"),
   (".banner", "background: #e3f4ea; border: 1px solid #2bac76; border-radius: 6px; " ++
      "padding: 12px 16px; margin: 24px 0;"),
   (".install", "display: inline-block; margin: 24px 0; padding: 12px 20px; " ++
      "background: #4a154b; color: #fff; border-radius: 6px; text-decoration: none; " ++
      "font-weight: 600;"),
   ("code", "background: #fff; border: 1px solid #e8e8e8; border-radius: 3px; padding: 1px 5px;"),
   ("ul", "padding-left: 20px;")]

/-- Commands that the page shows, each with what it does. -/
def pageExamples : List (String × String) :=
  [("/roll", "rolls a single 6-sided die"),
   ("/roll d20", "rolls a single 20-sided die"),
   ("/roll 4d10", "rolls four 10-sided dice"),
   ("/roll 1d6+3", "adds 3 to the total"),
   ("/roll 10d6 hit", "counts every 5 or higher as a hit"),
   ("/roll 10d10 hit7", "counts every 7 or higher as a hit")]

/-- The lines that greet a team after its installation. -/
def banner (s : Settings) : List String :=
  ["    <div class=\"banner\">" ++ escape s.nameFull ++
    " was successfully added to your team. Try <code>" ++ escape (s.allowedCommands.headD "") ++
    " help</code> in any channel.</div>",
   "    "]

/-- The page, with the banner after an installation. -/
def homePage (s : Settings) (installed : Bool) : String :=
  "\n".intercalate (
    ["<!DOCTYPE html>", "<html lang=\"en\">", "<head>", "  <meta charset=\"utf-8\">",
     "  <meta name=\"viewport\" content=\"width=device-width, initial-scale=1\">",
     "  <title>" ++ escape s.nameFull ++ "</title>", "  <style>"] ++
    pageStyle.map (fun (selector, declarations) =>
      "    " ++ selector ++ " \x7b " ++ declarations ++ " \x7d") ++
    ["  </style>", "</head>", "<body>", "  <main>", "    <h1>" ++ escape s.nameFull ++ "</h1>",
     "    <p class=\"version\">v" ++ escape botVersion ++ "</p>", "", "    "] ++
    (if installed then banner s else []) ++
    ["",
     "    <p>Roll dice right inside Slack. Pick how many dice, how many sides, add a modifier, " ++
       "or count hits against a threshold.</p>", "",
     "    <a class=\"install\" href=\"" ++ escape s.authUrl ++ "\">Add to Slack</a>", "",
     "    <h2>Examples</h2>", "    <ul>"] ++
    pageExamples.map (fun (command, effect) =>
      "      <li><code>" ++ command ++ "</code> " ++ effect ++ "</li>") ++
    ["    </ul>", "", "    <h2>Commands</h2>", "    <p>",
     "      " ++ " ".intercalate (s.allowedCommands.map fun c =>
       "<code>" ++ escape c ++ "</code>"),
     "    </p>", "  </main>", "</body>", "</html>", ""])

end DiceBot.Server
