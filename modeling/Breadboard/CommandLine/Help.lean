/-
  Breadboard.CommandLine.Help — the texts that the command prints about itself.
-/

import Breadboard.Text.Basic

namespace Breadboard.CommandLine

def versionText : Text := "sketchtty 0.1.0\n".toList

def helpLines : List String := [
  "Simulate a microcontroller sketch in the terminal",
  "",
  "Usage: sketchtty [OPTIONS] <SKETCH>",
  "",
  "Arguments:",
  "  <SKETCH>  Sketch file (\x60.ino\x60) to simulate",
  "",
  "Options:",
  "      --config <CONFIG>      Config file (defaults to ~/.sketchtty/config.yaml)",
  "      --tick-ms <TICK_MS>    Override the scheduler period in milliseconds",
  "      --headless             Run without the TUI and print the serial output",
  "      --ticks <TICKS>        Number of ticks to run in headless mode [default: 200]",
  "      --log-file <LOG_FILE>  Write logs to this file (TUI mode logs nowhere otherwise)",
  "  -h, --help                 Print help",
  "  -V, --version              Print version"]

def helpText : Text := helpLines.flatMap fun l => l.toList ++ ['\n']

end Breadboard.CommandLine
