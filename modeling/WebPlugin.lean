import WebPlugin.Memory
import WebPlugin.Ledger
import WebPlugin.Demux
import WebPlugin.Extents
import WebPlugin.Still
import WebPlugin.Delays
import WebPlugin.BlendSplit
import WebPlugin.Playback
import WebPlugin.Plays
import WebPlugin.Assembly
import WebPlugin.Paging
import WebPlugin.Contained
import WebPlugin.Emission
import WebPlugin.Fancy
